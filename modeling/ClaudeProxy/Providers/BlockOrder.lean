import ClaudeProxy.Providers.BlockLedger

namespace ClaudeProxy.Providers

open Kit

namespace ContentBlockManager

def Running (b : ContentBlockManager) (toolIndex : Int) : Prop :=
  ∃ state, b.toolStates.get? toolIndex = some state ∧ state.started = true

def Holds (b : ContentBlockManager) (index : Int) : BlockType → Prop
  | .thinking => b.thinkingStarted = true ∧ b.thinkingIndex = index
  | .text => b.textStarted = true ∧ b.textIndex = index
  | .toolUse => ∃ toolIndex state, b.toolStates.get? toolIndex = some state ∧ state.started = true ∧
      state.blockIndex = index

def Closed (b : ContentBlockManager) : Prop := b.thinkingStarted = false ∧ b.textStarted = false

structure Sane (b : ContentBlockManager) : Prop where
  bounded : ∀ index type, b.Holds index type → index < b.nextIndex
  unique : ∀ index type type', b.Holds index type → b.Holds index type' → type = type'
  exclusive : b.thinkingStarted = true → b.textStarted = false
  distinct : ∀ i j state state', b.toolStates.get? i = some state → b.toolStates.get? j = some state' →
    state.started = true → state'.started = true → state.blockIndex = state'.blockIndex → i = j
  buffered : ∀ i state, b.toolStates.get? i = some state → state.taskArgBuffer ≠ [] → state.started = true

/-- The reader's ledger and the manager agree. -/
structure Tracks (b : ContentBlockManager) (l : Ledger) : Prop where
  next : l.next = b.nextIndex
  opened : ∀ index type, (index, type) ∈ l.opened ↔ b.Holds index type
  sane : b.Sane

theorem Sane.start {b b' : ContentBlockManager} (sane : b.Sane) {type : BlockType}
    (next : b'.nextIndex = b.nextIndex + 1)
    (holds : ∀ index type', b'.Holds index type' ↔ b.Holds index type' ∨ index = b.nextIndex ∧ type' = type) :
    (∀ index type', b'.Holds index type' → index < b'.nextIndex) ∧
      ∀ index first second, b'.Holds index first → b'.Holds index second → first = second := by
  refine ⟨fun index type' held => ?_, fun index first second one two => ?_⟩
  · rw [next]
    rcases (holds index type').mp held with old | ⟨rfl, _⟩
    · have bound := sane.bounded index type' old
      omega
    · omega
  · rcases (holds index first).mp one with old | ⟨rfl, rfl⟩ <;>
      rcases (holds _ second).mp two with old' | ⟨here, rfl⟩
    · exact sane.unique index first second old old'
    · have bound := sane.bounded index first old
      omega
    · have bound := sane.bounded _ second old'
      omega
    · rfl

theorem Tracks.start {b b' : ContentBlockManager} {l : Ledger} (tracks : b.Tracks l) {type : BlockType}
    (next : b'.nextIndex = b.nextIndex + 1)
    (holds : ∀ index type', b'.Holds index type' ↔ b.Holds index type' ∨ index = b.nextIndex ∧ type' = type)
    (sane : b'.Sane) : b'.Tracks ⟨l.next + 1, l.opened ++ [(l.next, type)]⟩ where
  next := by
    rw [next, tracks.next]
  opened index type' := by
    rw [holds, ← tracks.opened, ← tracks.next]
    simp
  sane := sane

theorem Tracks.stop {b b' : ContentBlockManager} {l : Ledger} (tracks : b.Tracks l) {stopped : Int}
    (next : b'.nextIndex = b.nextIndex)
    (holds : ∀ index type, b'.Holds index type ↔ b.Holds index type ∧ index ≠ stopped) (sane : b'.Sane) :
    b'.Tracks { l with opened := l.opened.filter fun entry => entry.1 ≠ stopped } where
  next := tracks.next.trans next.symm
  opened index type := by
    rw [holds, ← tracks.opened]
    simp
  sane := sane

theorem Tracks.onlyTools {b : ContentBlockManager} {l : Ledger} (tracks : b.Tracks l) (closed : b.Closed) :
    ∀ entry ∈ l.opened, entry.2 = .toolUse := by
  rintro ⟨index, type⟩ member
  have held := (tracks.opened index type).mp member
  cases type with
  | thinking =>
    have started := held.1
    rw [closed.1] at started
    cases started
  | text =>
    have started := held.1
    rw [closed.2] at started
    cases started
  | toolUse => rfl

/-- The tools of the two managers are open alike; nothing else differs. -/
structure Alike (b b' : ContentBlockManager) : Prop where
  next : b'.nextIndex = b.nextIndex
  thinking : b'.thinkingStarted = b.thinkingStarted ∧ b'.thinkingIndex = b.thinkingIndex
  text : b'.textStarted = b.textStarted ∧ b'.textIndex = b.textIndex
  earlier : ∀ i state', b'.toolStates.get? i = some state' → state'.started = true →
    ∃ state, b.toolStates.get? i = some state ∧ state.started = true ∧ state.blockIndex = state'.blockIndex
  later : ∀ i state, b.toolStates.get? i = some state → state.started = true →
    ∃ state', b'.toolStates.get? i = some state' ∧ state'.started = true ∧ state'.blockIndex = state.blockIndex
  buffered : ∀ i state', b'.toolStates.get? i = some state' → state'.taskArgBuffer ≠ [] → state'.started = true

theorem Alike.holds {b b' : ContentBlockManager} (alike : Alike b b') (index : Int) (type : BlockType) :
    b'.Holds index type ↔ b.Holds index type := by
  cases type with
  | thinking => rw [Holds, Holds, alike.thinking.1, alike.thinking.2]
  | text => rw [Holds, Holds, alike.text.1, alike.text.2]
  | toolUse =>
    constructor
    · rintro ⟨i, state', found, started, rfl⟩
      obtain ⟨state, present, before, same⟩ := alike.earlier i state' found started
      exact ⟨i, state, present, before, same⟩
    · rintro ⟨i, state, found, started, rfl⟩
      obtain ⟨state', present, after, same⟩ := alike.later i state found started
      exact ⟨i, state', present, after, same⟩

theorem Alike.running {b b' : ContentBlockManager} (alike : Alike b b') {i : Int} (running : b.Running i) :
    b'.Running i := by
  obtain ⟨state, found, started⟩ := running
  obtain ⟨state', present, after, _⟩ := alike.later i state found started
  exact ⟨state', present, after⟩

theorem Alike.sane {b b' : ContentBlockManager} (alike : Alike b b') (sane : b.Sane) : b'.Sane where
  bounded index type held := by
    rw [alike.next]
    exact sane.bounded index type ((alike.holds index type).mp held)
  unique index type type' one two :=
    sane.unique index type type' ((alike.holds index type).mp one) ((alike.holds index type').mp two)
  exclusive := by
    rw [alike.thinking.1, alike.text.1]
    exact sane.exclusive
  distinct i j state state' one two started started' same := by
    obtain ⟨old, present, before, index⟩ := alike.earlier i state one started
    obtain ⟨old', present', before', index'⟩ := alike.earlier j state' two started'
    exact sane.distinct i j old old' present present' before before' (index.trans (same.trans index'.symm))
  buffered := alike.buffered

theorem Tracks.alike {b b' : ContentBlockManager} {l : Ledger} (tracks : b.Tracks l) (alike : Alike b b') :
    b'.Tracks l where
  next := tracks.next.trans alike.next.symm
  opened index type := (tracks.opened index type).trans (alike.holds index type).symm
  sane := alike.sane tracks.sane

theorem alike_set {b : ContentBlockManager} (sane : b.Sane) {i : Int} {state' : ToolCallState}
    (was : state'.started = true → ∃ state, b.toolStates.get? i = some state ∧ state.started = true ∧
      state.blockIndex = state'.blockIndex)
    (remains : ∀ state, b.toolStates.get? i = some state → state.started = true →
      state'.started = true ∧ state'.blockIndex = state.blockIndex)
    (buffered : state'.taskArgBuffer ≠ [] → state'.started = true) :
    Alike b { b with toolStates := b.toolStates.set i state' } where
  next := rfl
  thinking := ⟨rfl, rfl⟩
  text := ⟨rfl, rfl⟩
  earlier j other found started := by
    rw [Dict.get?_set] at found
    split at found
    · rename_i same
      cases found
      rw [same]
      exact was started
    · exact ⟨other, found, started, rfl⟩
  later j other found started := by
    by_cases same : j = i
    · subst same
      obtain ⟨running, index⟩ := remains other found started
      exact ⟨state', by rw [Dict.get?_set_self], running, index⟩
    · exact ⟨other, by rw [Dict.get?_set_ne _ _ same]; exact found, started, rfl⟩
  buffered j other found full := by
    rw [Dict.get?_set] at found
    split at found
    · cases found
      exact buffered full
    · exact sane.buffered j other found full

theorem registerToolName_alike {b : ContentBlockManager} (sane : b.Sane) (index : Int) (name : Str) :
    Alike b (b.registerToolName index name) := by
  unfold registerToolName
  split
  · rename_i absent
    refine alike_set sane nofun (fun state found _ => ?_) fun full => absurd rfl full
    rw [absent] at found
    cases found
  · rename_i state found
    refine alike_set sane (fun started => ⟨state, found, started, rfl⟩) (fun other present started => ?_)
      (sane.buffered index state found)
    rw [found] at present
    cases present
    exact ⟨started, rfl⟩

theorem alike_refl {b : ContentBlockManager} (sane : b.Sane) : Alike b b :=
  ⟨rfl, ⟨rfl, rfl⟩, ⟨rfl, rfl⟩, fun _ state found started => ⟨state, found, started, rfl⟩,
    fun _ state found started => ⟨state, found, started, rfl⟩, sane.buffered⟩

theorem Alike.trans {first middle last : ContentBlockManager} (one : Alike first middle) (two : Alike middle last) :
    Alike first last where
  next := two.next.trans one.next
  thinking := ⟨two.thinking.1.trans one.thinking.1, two.thinking.2.trans one.thinking.2⟩
  text := ⟨two.text.1.trans one.text.1, two.text.2.trans one.text.2⟩
  earlier i state' found started := by
    obtain ⟨state, present, before, same⟩ := two.earlier i state' found started
    obtain ⟨old, there, earlier, index⟩ := one.earlier i state present before
    exact ⟨old, there, earlier, index.trans same⟩
  later i state found started := by
    obtain ⟨state', present, after, same⟩ := one.later i state found started
    obtain ⟨new, there, later, index⟩ := two.later i state' present after
    exact ⟨new, there, later, index.trans same⟩
  buffered := two.buffered

theorem alike_buffer {b : ContentBlockManager} (sane : b.Sane) {i : Int} {state state' : ToolCallState}
    (found : b.toolStates.get? i = some state) (started : state'.started = state.started)
    (index : state'.blockIndex = state.blockIndex) (running : state'.taskArgBuffer ≠ [] → state.started = true) :
    Alike b { b with toolStates := b.toolStates.set i state' } := by
  refine alike_set sane (fun open' => ⟨state, found, started ▸ open', index.symm⟩) (fun other present open' => ?_)
    fun full => started ▸ running full
  rw [found] at present
  cases present
  exact ⟨started ▸ open', index⟩

theorem bufferTaskArgs_alike {b : ContentBlockManager} (sane : b.Sane) (rt : Runtime) {index : Int} (args : Str)
    (running : b.Running index) : Alike b (b.bufferTaskArgs rt index args).2 := by
  obtain ⟨state, found, started⟩ := running
  unfold bufferTaskArgs
  rw [found]
  dsimp only
  split
  · exact alike_refl sane
  · generalize buffering : ({ state with taskArgBuffer := state.taskArgBuffer ++ args } : ToolCallState) = buffered
    have same : buffered.started = state.started ∧ buffered.blockIndex = state.blockIndex := by
      rw [← buffering]
      exact ⟨rfl, rfl⟩
    have grown : Alike b { b with toolStates := b.toolStates.set index buffered } :=
      alike_buffer sane found same.1 same.2 fun _ => started
    split
    · exact grown
    · split
      · exact grown
      · exact grown.trans
          (alike_buffer (grown.sane sane) (Dict.get?_set_self ..) same.1.symm same.2.symm fun full => absurd rfl full)

theorem flushLoop_alike (rt : Runtime) (items : List (Int × ToolCallState)) {b : ContentBlockManager} (sane : b.Sane)
    (stored : ∀ item ∈ items, ∃ state, b.toolStates.get? item.1 = some state ∧ item.2.started = state.started ∧
      item.2.blockIndex = state.blockIndex)
    (running : ∀ item ∈ items, item.2.taskArgBuffer ≠ [] → item.2.started = true) :
    Alike b (flushLoop rt items b).2 ∧ ∀ result ∈ (flushLoop rt items b).1, b.Running result.1 := by
  induction items generalizing b with
  | nil => exact ⟨alike_refl sane, by simp [flushLoop]⟩
  | cons item rest ih =>
    obtain ⟨toolIndex, state⟩ := item
    simp only [flushLoop]
    split
    · exact ih sane (fun other member => stored other (List.mem_cons_of_mem _ member))
        fun other member => running other (List.mem_cons_of_mem _ member)
    · rename_i pending
      obtain ⟨old, found, started, index⟩ := stored _ List.mem_cons_self
      have full : state.taskArgBuffer ≠ [] := fun empty => pending (.inl empty)
      generalize emptying : ({ state with taskArgsEmitted := true, taskArgBuffer := [] } : ToolCallState) = emptied
      have same : emptied.started = state.started ∧ emptied.blockIndex = state.blockIndex ∧
          emptied.taskArgBuffer = [] := by
        rw [← emptying]
        exact ⟨rfl, rfl, rfl⟩
      have here : Alike b { b with toolStates := b.toolStates.set toolIndex emptied } :=
        alike_buffer sane found (same.1.trans started) (same.2.1.trans index) fun other => absurd same.2.2 other
      have own : b.Running toolIndex :=
        ⟨old, found, started ▸ running _ List.mem_cons_self full⟩
      have restStored : ∀ other ∈ rest, ∃ state', (b.toolStates.set toolIndex emptied).get? other.1 = some state' ∧
          other.2.started = state'.started ∧ other.2.blockIndex = state'.blockIndex := by
        intro other member
        obtain ⟨before, present, equal, place⟩ := stored other (List.mem_cons_of_mem _ member)
        by_cases own' : other.1 = toolIndex
        · rw [own', Dict.get?_set_self]
          rw [own', found] at present
          cases present
          exact ⟨_, rfl, equal.trans (same.1.trans started).symm, place.trans (same.2.1.trans index).symm⟩
        · rw [Dict.get?_set_ne _ _ own']
          exact ⟨before, present, equal, place⟩
      obtain ⟨alike, results⟩ := ih (here.sane sane) restStored
        fun other member => running other (List.mem_cons_of_mem _ member)
      refine ⟨here.trans alike, fun result member => ?_⟩
      rcases List.mem_cons.mp member with rfl | later
      · exact own
      · obtain ⟨state', present, open'⟩ := results result later
        obtain ⟨before, there, wasOpen, _⟩ := here.earlier result.1 state' present open'
        exact ⟨before, there, wasOpen⟩

theorem flushTaskArgBuffers_alike {b : ContentBlockManager} (sane : b.Sane) (rt : Runtime) :
    Alike b (b.flushTaskArgBuffers rt).2 ∧ ∀ result ∈ (b.flushTaskArgBuffers rt).1, b.Running result.1 := by
  have listed (item : Int × ToolCallState) (member : item ∈ b.toolStates.entries) :
      b.toolStates.get? item.1 = some item.2 := (Dict.get?_eq_some_iff ..).mpr member
  exact flushLoop_alike rt _ sane (fun item member => ⟨item.2, listed item member, rfl, rfl⟩)
    fun item member => sane.buffered item.1 item.2 (listed item member)

end ContentBlockManager

open ContentBlockManager

/-- From a builder that meets `pre` the act yields block events in order and reaches one that meets `post`. -/
def Advances (pre : ContentBlockManager → Prop) (act : SSEBuilder → List Event × SSEBuilder)
    (post : ContentBlockManager → Prop) : Prop :=
  ∀ sse l, sse.blocks.Tracks l → pre sse.blocks →
    ∃ l', l.run (act sse).1 = some l' ∧ (act sse).2.blocks.Tracks l' ∧ post (act sse).2.blocks ∧
      ∀ event ∈ (act sse).1, event.ofBlock = true

namespace SSEBuilder

theorem nothing_advances (pre : ContentBlockManager → Prop) : Advances pre nothing pre :=
  fun _ l tracks before => ⟨l, rfl, tracks, before, by simp [nothing]⟩

theorem andThen_advances {pre post : ContentBlockManager → Prop} (middle : ContentBlockManager → Prop)
    {first second : SSEBuilder → List Event × SSEBuilder} (one : Advances pre first middle)
    (two : Advances middle second post) : Advances pre (andThen first second) post := by
  intro sse l tracks before
  obtain ⟨l', ran, tracks', between, blocks⟩ := one sse l tracks before
  obtain ⟨l'', ran', tracks'', after, blocks'⟩ := two (first sse).2 l' tracks' between
  refine ⟨l'', Ledger.run_trans ran ran', tracks'', after, fun event member => ?_⟩
  rcases List.mem_append.mp member with early | late
  · exact blocks event early
  · exact blocks' event late

theorem ite_advances {pre post : ContentBlockManager → Prop} (test : ContentBlockManager → Prop)
    [DecidablePred test] {yes no : SSEBuilder → List Event × SSEBuilder}
    (left : Advances (fun b => pre b ∧ test b) yes post) (right : Advances (fun b => pre b ∧ ¬ test b) no post) :
    Advances pre (fun sse => if test sse.blocks then yes sse else no sse) post := by
  intro sse l tracks before
  by_cases holds : test sse.blocks
  · simp only [holds, if_true]
    exact left sse l tracks ⟨before, holds⟩
  · simp only [holds, if_false]
    exact right sse l tracks ⟨before, holds⟩

theorem weaken_advances {pre pre' post post' : ContentBlockManager → Prop} {act : SSEBuilder → List Event × SSEBuilder}
    (advances : Advances pre act post) (before : ∀ b, b.Sane → pre' b → pre b) (after : ∀ b, b.Sane → post b → post' b) :
    Advances pre' act post' := by
  intro sse l tracks start
  obtain ⟨l', ran, tracks', done, blocks⟩ := advances sse l tracks (before _ tracks.sane start)
  exact ⟨l', ran, tracks', after _ tracks'.sane done, blocks⟩

theorem started_advances {sse sse' : SSEBuilder} {l : Ledger} (tracks : sse.blocks.Tracks l) (block : ContentBlock)
    (next : sse'.blocks.nextIndex = sse.blocks.nextIndex + 1)
    (holds : ∀ index type, sse'.blocks.Holds index type ↔
      sse.blocks.Holds index type ∨ index = sse.blocks.nextIndex ∧ type = block.type)
    (sane : sse'.blocks.Sane) (alone : block.type ≠ .toolUse → sse.blocks.Closed) :
    ∃ l', l.run [.contentBlockStart sse.blocks.nextIndex block] = some l' ∧ sse'.blocks.Tracks l' := by
  refine ⟨⟨l.next + 1, l.opened ++ [(l.next, block.type)]⟩, ?_, tracks.start next holds sane⟩
  rw [Ledger.run_cons, Ledger.step, if_pos ⟨tracks.next.symm, fun content => tracks.onlyTools (alone content)⟩,
    ← tracks.next]
  rfl

theorem stopped_advances {sse sse' : SSEBuilder} {l : Ledger} (tracks : sse.blocks.Tracks l) {index : Int}
    {type : BlockType} (held : sse.blocks.Holds index type)
    (holds : ∀ other type, sse'.blocks.Holds other type ↔ sse.blocks.Holds other type ∧ other ≠ index)
    (sane : sse'.blocks.Sane) (next : sse'.blocks.nextIndex = sse.blocks.nextIndex) :
    ∃ l', l.run [.contentBlockStop index] = some l' ∧ sse'.blocks.Tracks l' := by
  refine ⟨{ l with opened := l.opened.filter fun entry => entry.1 ≠ index }, ?_, tracks.stop next holds sane⟩
  have here : index ∈ l.opened.map Prod.fst := List.mem_map.mpr ⟨(index, type), (tracks.opened ..).mpr held, rfl⟩
  rw [Ledger.run_cons, Ledger.step, if_pos here]
  rfl

theorem delta_advances {sse : SSEBuilder} {l : Ledger} (tracks : sse.blocks.Tracks l) {index : Int} {delta : Delta}
    (held : sse.blocks.Holds index delta.blockType) : l.run [.contentBlockDelta index delta] = some l := by
  rw [Ledger.run_cons, Ledger.step, if_pos ((tracks.opened ..).mpr held)]
  rfl

theorem startThinkingBlock_advances :
    Advances Closed startThinkingBlock fun b => b.thinkingStarted = true := by
  intro sse l tracks closed
  have sane := tracks.sane
  have holds : ∀ index type, (startThinkingBlock sse).2.blocks.Holds index type ↔
      sse.blocks.Holds index type ∨ index = sse.blocks.nextIndex ∧ type = .thinking := by
    intro index type
    cases type with
    | thinking => simp [startThinkingBlock, allocateIndex, Holds, closed.1, eq_comm]
    | text => simp [startThinkingBlock, allocateIndex, Holds]
    | toolUse => simp [startThinkingBlock, allocateIndex, Holds]
  obtain ⟨bounded, unique⟩ := sane.start rfl holds
  have saneAfter : (startThinkingBlock sse).2.blocks.Sane :=
    ⟨bounded, unique, fun _ => closed.2, sane.distinct, sane.buffered⟩
  obtain ⟨l', ran, after⟩ := started_advances tracks (.thinking []) rfl holds saneAfter fun _ => closed
  exact ⟨l', ran, after, rfl, by simp [startThinkingBlock, Event.ofBlock]⟩

theorem startTextBlock_advances : Advances Closed startTextBlock fun b => b.textStarted = true := by
  intro sse l tracks closed
  have sane := tracks.sane
  have holds : ∀ index type, (startTextBlock sse).2.blocks.Holds index type ↔
      sse.blocks.Holds index type ∨ index = sse.blocks.nextIndex ∧ type = .text := by
    intro index type
    cases type with
    | thinking => simp [startTextBlock, allocateIndex, Holds]
    | text => simp [startTextBlock, allocateIndex, Holds, closed.2, eq_comm]
    | toolUse => simp [startTextBlock, allocateIndex, Holds]
  obtain ⟨bounded, unique⟩ := sane.start rfl holds
  have idle : (startTextBlock sse).2.blocks.thinkingStarted = false := closed.1
  have saneAfter : (startTextBlock sse).2.blocks.Sane := by
    refine ⟨bounded, unique, fun started => ?_, sane.distinct, sane.buffered⟩
    rw [idle] at started
    cases started
  obtain ⟨l', ran, after⟩ := started_advances tracks (.text []) rfl holds saneAfter fun _ => closed
  exact ⟨l', ran, after, rfl, by simp [startTextBlock, Event.ofBlock]⟩

theorem stopThinkingBlock_advances :
    Advances (fun b => b.thinkingStarted = true) stopThinkingBlock Closed := by
  intro sse l tracks started
  have sane := tracks.sane
  have held : sse.blocks.Holds sse.blocks.thinkingIndex .thinking := ⟨started, rfl⟩
  have holds : ∀ other type, (stopThinkingBlock sse).2.blocks.Holds other type ↔
      sse.blocks.Holds other type ∧ other ≠ sse.blocks.thinkingIndex := by
    intro other type
    have apart (present : sse.blocks.Holds other type) (kind : type ≠ .thinking) :
        other ≠ sse.blocks.thinkingIndex := by
      rintro rfl
      exact kind (sane.unique _ _ _ present held)
    cases type with
    | thinking =>
      simp only [stopThinkingBlock, Holds, Bool.false_eq_true, false_and, false_iff, not_and, not_not]
      exact fun present => present.2.symm
    | text => exact ⟨fun present => ⟨present, apart present nofun⟩, fun present => present.1⟩
    | toolUse => exact ⟨fun present => ⟨present, apart present nofun⟩, fun present => present.1⟩
  have saneAfter : (stopThinkingBlock sse).2.blocks.Sane :=
    ⟨fun index type present => sane.bounded index type ((holds index type).mp present).1,
      fun index type type' one two => sane.unique index type type' ((holds ..).mp one).1 ((holds ..).mp two).1,
      nofun, sane.distinct, sane.buffered⟩
  obtain ⟨l', ran, after⟩ := stopped_advances tracks held holds saneAfter rfl
  exact ⟨l', ran, after, ⟨rfl, sane.exclusive started⟩, by simp [stopThinkingBlock, Event.ofBlock]⟩

theorem stopTextBlock_advances : Advances (fun b => b.textStarted = true) stopTextBlock Closed := by
  intro sse l tracks started
  have sane := tracks.sane
  have held : sse.blocks.Holds sse.blocks.textIndex .text := ⟨started, rfl⟩
  have holds : ∀ other type, (stopTextBlock sse).2.blocks.Holds other type ↔
      sse.blocks.Holds other type ∧ other ≠ sse.blocks.textIndex := by
    intro other type
    have apart (present : sse.blocks.Holds other type) (kind : type ≠ .text) : other ≠ sse.blocks.textIndex := by
      rintro rfl
      exact kind (sane.unique _ _ _ present held)
    cases type with
    | thinking => exact ⟨fun present => ⟨present, apart present nofun⟩, fun present => present.1⟩
    | text =>
      simp only [stopTextBlock, Holds, Bool.false_eq_true, false_and, false_iff, not_and, not_not]
      exact fun present => present.2.symm
    | toolUse => exact ⟨fun present => ⟨present, apart present nofun⟩, fun present => present.1⟩
  have idle : sse.blocks.thinkingStarted = false := by
    cases thinking : sse.blocks.thinkingStarted with
    | false => rfl
    | true =>
      rw [sane.exclusive thinking] at started
      cases started
  have saneAfter : (stopTextBlock sse).2.blocks.Sane :=
    ⟨fun index type present => sane.bounded index type ((holds index type).mp present).1,
      fun index type type' one two => sane.unique index type type' ((holds ..).mp one).1 ((holds ..).mp two).1,
      fun _ => rfl, sane.distinct, sane.buffered⟩
  obtain ⟨l', ran, after⟩ := stopped_advances tracks held holds saneAfter rfl
  exact ⟨l', ran, after, ⟨idle, rfl⟩, by simp [stopTextBlock, Event.ofBlock]⟩

theorem ensureThinkingBlock_advances :
    Advances (fun _ => True) ensureThinkingBlock fun b => b.thinkingStarted = true := by
  refine andThen_advances (fun b => b.textStarted = false) ?_ ?_
  · refine ite_advances (fun b => b.textStarted = true) ?_ ?_
    · exact weaken_advances stopTextBlock_advances (fun _ _ before => before.2) fun _ _ after => after.2
    · exact weaken_advances (nothing_advances _) (fun _ _ before => before) fun _ _ after => by simpa using after.2
  · refine ite_advances (fun b => ¬ b.thinkingStarted = true) ?_ ?_
    · exact weaken_advances startThinkingBlock_advances (fun _ _ before => ⟨by simpa using before.2, before.1⟩)
        fun _ _ after => after
    · exact weaken_advances (nothing_advances _) (fun _ _ before => before) fun _ _ after => not_not.mp after.2

theorem ensureTextBlock_advances : Advances (fun _ => True) ensureTextBlock fun b => b.textStarted = true := by
  refine andThen_advances (fun b => b.thinkingStarted = false) ?_ ?_
  · refine ite_advances (fun b => b.thinkingStarted = true) ?_ ?_
    · exact weaken_advances stopThinkingBlock_advances (fun _ _ before => before.2) fun _ _ after => after.1
    · exact weaken_advances (nothing_advances _) (fun _ _ before => before) fun _ _ after => by simpa using after.2
  · refine ite_advances (fun b => ¬ b.textStarted = true) ?_ ?_
    · exact weaken_advances startTextBlock_advances (fun _ _ before => ⟨before.1, by simpa using before.2⟩)
        fun _ _ after => after
    · exact weaken_advances (nothing_advances _) (fun _ _ before => before) fun _ _ after => not_not.mp after.2

theorem closeContentBlocks_advances : Advances (fun _ => True) closeContentBlocks Closed := by
  refine andThen_advances (fun b => b.thinkingStarted = false) ?_ ?_
  · refine ite_advances (fun b => b.thinkingStarted = true) ?_ ?_
    · exact weaken_advances stopThinkingBlock_advances (fun _ _ before => before.2) fun _ _ after => after.1
    · exact weaken_advances (nothing_advances _) (fun _ _ before => before) fun _ _ after => by simpa using after.2
  · refine ite_advances (fun b => b.textStarted = true) ?_ ?_
    · exact weaken_advances stopTextBlock_advances (fun _ _ before => before.2) fun _ _ after => after
    · exact weaken_advances (nothing_advances _) (fun _ _ before => before)
        fun _ _ after => ⟨after.1, by simpa using after.2⟩

theorem emitThinkingDelta_advances (content : Str) :
    Advances (fun b => b.thinkingStarted = true) (emitThinkingDelta content) fun b => b.thinkingStarted = true :=
  fun _ l tracks started =>
    ⟨l, delta_advances tracks ⟨started, rfl⟩, tracks, started, by simp [emitThinkingDelta, Event.ofBlock]⟩

theorem emitTextDelta_advances (content : Str) :
    Advances (fun b => b.textStarted = true) (emitTextDelta content) fun b => b.textStarted = true :=
  fun _ l tracks started =>
    ⟨l, delta_advances tracks ⟨started, rfl⟩, tracks, started, by simp [emitTextDelta, Event.ofBlock]⟩

/-- A whole block, started, filled and stopped at once; the manager does not record it. -/
theorem whole_block {b : ContentBlockManager} {l : Ledger} (tracks : b.Tracks l) (block : ContentBlock) (delta : Delta)
    (same : delta.blockType = block.type) (alone : block.type ≠ .toolUse → b.Closed) :
    ∃ l', l.run [.contentBlockStart b.nextIndex block, .contentBlockDelta b.nextIndex delta,
        .contentBlockStop b.nextIndex] = some l' ∧ b.allocateIndex.2.Tracks l' := by
  have fresh : l.opened.filter (fun entry => entry.1 ≠ l.next) = l.opened := by
    rw [List.filter_eq_self]
    rintro ⟨index, type⟩ member
    have bound := tracks.sane.bounded index type ((tracks.opened ..).mp member)
    rw [← tracks.next] at bound
    simp only [decide_eq_true_eq]
    omega
  refine ⟨⟨l.next + 1, l.opened⟩, ?_, ?_⟩
  · rw [← tracks.next, Ledger.run_cons, Ledger.step, if_pos ⟨rfl, fun content => tracks.onlyTools (alone content)⟩,
      Option.bind_some, Ledger.run_cons, Ledger.step, if_pos (by simp [same]), Option.bind_some, Ledger.run_cons,
      Ledger.step, if_pos (by simp)]
    simp only [List.filter_append, fresh]
    simp [Ledger.run_nil]
  · have sane := tracks.sane
    refine ⟨by rw [tracks.next]; rfl, tracks.opened, fun index type held => ?_, sane.unique, sane.exclusive,
      sane.distinct, sane.buffered⟩
    have bound := sane.bounded index type held
    simp only [allocateIndex]
    omega

theorem emitError_advances (errorMessage : Str) : Advances Closed (emitError errorMessage) Closed := by
  intro sse l tracks closed
  obtain ⟨l', ran, after⟩ := whole_block tracks (.text []) (.textDelta errorMessage) rfl fun _ => closed
  exact ⟨l', ran, after, closed, by simp [emitError, Event.ofBlock]⟩

theorem startToolBlock_advances (toolIndex : Int) (toolId name : Str) :
    Advances (fun b => ¬ b.Running toolIndex) (startToolBlock toolIndex toolId name)
      fun b => b.Running toolIndex := by
  intro sse l tracks idle
  have sane := tracks.sane
  obtain ⟨state, stored, started, index⟩ : ∃ state : ToolCallState,
      (startToolBlock toolIndex toolId name sse).2.blocks.toolStates = sse.blocks.toolStates.set toolIndex state ∧
        state.started = true ∧ state.blockIndex = sse.blocks.nextIndex := by
    simp only [startToolBlock, allocateIndex]
    cases sse.blocks.toolStates.get? toolIndex with
    | none => exact ⟨_, rfl, rfl, rfl⟩
    | some old => exact ⟨_, rfl, rfl, rfl⟩
  have own : (startToolBlock toolIndex toolId name sse).2.blocks.toolStates.get? toolIndex = some state := by
    rw [stored, Dict.get?_set_self]
  have others (i : Int) (ne : i ≠ toolIndex) :
      (startToolBlock toolIndex toolId name sse).2.blocks.toolStates.get? i = sse.blocks.toolStates.get? i := by
    rw [stored, Dict.get?_set_ne _ _ ne]
  have holds : ∀ index' type, (startToolBlock toolIndex toolId name sse).2.blocks.Holds index' type ↔
      sse.blocks.Holds index' type ∨ index' = sse.blocks.nextIndex ∧ type = .toolUse := by
    intro index' type
    cases type with
    | thinking => simp [startToolBlock, allocateIndex, Holds]
    | text => simp [startToolBlock, allocateIndex, Holds]
    | toolUse =>
      constructor
      · rintro ⟨i, other, found, open', rfl⟩
        by_cases same : i = toolIndex
        · rw [same, own] at found
          cases found
          exact .inr ⟨index, rfl⟩
        · rw [others i same] at found
          exact .inl ⟨i, other, found, open', rfl⟩
      · rintro (⟨i, other, found, open', rfl⟩ | ⟨rfl, _⟩)
        · have ne : i ≠ toolIndex := by
            rintro rfl
            exact idle ⟨other, found, open'⟩
          exact ⟨i, other, by rw [others i ne]; exact found, open', rfl⟩
        · exact ⟨toolIndex, state, own, started, index⟩
  obtain ⟨bounded, unique⟩ := sane.start rfl holds
  have saneAfter : (startToolBlock toolIndex toolId name sse).2.blocks.Sane := by
    refine ⟨bounded, unique, sane.exclusive, fun i j one two found found' open' open'' same => ?_,
      fun i other found full => ?_⟩
    · -- the new index is above those of the other open blocks
      have below (k : Int) (other : ToolCallState) (ne : k ≠ toolIndex)
          (present : sse.blocks.toolStates.get? k = some other) (running : other.started = true) :
          other.blockIndex < sse.blocks.nextIndex :=
        sane.bounded other.blockIndex .toolUse ⟨k, other, present, running, rfl⟩
      by_cases first : i = toolIndex <;> by_cases second : j = toolIndex
      · rw [first, second]
      · rw [first, own] at found
        cases found
        rw [others j second] at found'
        have bound := below j two second found' open''
        rw [← same, index] at bound
        omega
      · rw [second, own] at found'
        cases found'
        rw [others i first] at found
        have bound := below i one first found open'
        rw [same, index] at bound
        omega
      · rw [others i first] at found
        rw [others j second] at found'
        exact sane.distinct i j one two found found' open' open'' same
    · by_cases same : i = toolIndex
      · rw [same, own] at found
        cases found
        exact started
      · rw [others i same] at found
        exact sane.buffered i other found full
  obtain ⟨l', ran, after⟩ := started_advances tracks (.toolUse toolId name) rfl holds saneAfter fun content =>
    absurd rfl content
  exact ⟨l', ran, after, ⟨state, own, started⟩, by simp [startToolBlock, Event.ofBlock]⟩

theorem emitToolDelta_alike {sse : SSEBuilder} {l : Ledger} (tracks : sse.blocks.Tracks l) {toolIndex : Int}
    {partialJson : Str} {events : List Event} {sse' : SSEBuilder} (running : sse.blocks.Running toolIndex)
    (emitted : sse.emitToolDelta toolIndex partialJson = some (events, sse')) :
    l.run events = some l ∧ Alike sse.blocks sse'.blocks ∧ ∀ event ∈ events, event.ofBlock = true := by
  obtain ⟨state, found, started⟩ := running
  simp only [emitToolDelta, found, Option.map_some, Option.some.injEq, Prod.mk.injEq] at emitted
  obtain ⟨rfl, rfl⟩ := emitted
  refine ⟨delta_advances tracks ⟨toolIndex, state, found, started, rfl⟩, ?_, by simp [Event.ofBlock]⟩
  exact alike_buffer tracks.sane found rfl rfl fun _ => started

theorem emitToolDelta_isSome {sse : SSEBuilder} {toolIndex : Int} (partialJson : Str)
    (running : sse.blocks.Running toolIndex) : (sse.emitToolDelta toolIndex partialJson).isSome = true := by
  obtain ⟨state, found, _⟩ := running
  simp [emitToolDelta, found]

theorem run_stops (indices : List Int) {l : Ledger} (nodup : indices.Nodup)
    (held : ∀ index ∈ indices, index ∈ l.opened.map Prod.fst) :
    ∃ l', l.run (indices.map Event.contentBlockStop) = some l' ∧
      ∀ entry, entry ∈ l'.opened ↔ entry ∈ l.opened ∧ entry.1 ∉ indices := by
  induction indices generalizing l with
  | nil => exact ⟨l, rfl, by simp⟩
  | cons index rest ih =>
    obtain ⟨fresh, nodupRest⟩ := List.nodup_cons.mp nodup
    have heldRest : ∀ other ∈ rest,
        other ∈ (l.opened.filter fun entry => entry.1 ≠ index).map Prod.fst := by
      intro other member
      obtain ⟨entry, present, rfl⟩ := List.mem_map.mp (held other (List.mem_cons_of_mem _ member))
      refine List.mem_map.mpr ⟨entry, List.mem_filter.mpr ⟨present, decide_eq_true ?_⟩, rfl⟩
      rintro rfl
      exact fresh member
    obtain ⟨l', ran, remaining⟩ := ih (l := { l with opened := l.opened.filter fun entry => entry.1 ≠ index })
      nodupRest heldRest
    refine ⟨l', ?_, fun entry => ?_⟩
    · rw [List.map_cons, Ledger.run_cons, Ledger.step, if_pos (held index List.mem_cons_self)]
      exact ran
    · rw [remaining, List.mem_filter, List.mem_cons, not_or, decide_eq_true_eq, and_assoc]

theorem stopToolBlocks_indices (sse : SSEBuilder) :
    (stopToolBlocks sse).1 = ((sse.blocks.toolStates.entries.filter fun entry => entry.2.started).map
      fun entry => entry.2.blockIndex).map Event.contentBlockStop := by
  rw [stopToolBlocks, Dict.values, List.filter_map, List.map_map, List.map_map]
  rfl

theorem stopToolBlocks_closes {sse : SSEBuilder} {l : Ledger} (tracks : sse.blocks.Tracks l)
    (closed : sse.blocks.Closed) :
    ∃ l', l.run (stopToolBlocks sse).1 = some l' ∧ l'.opened = [] ∧
      ∀ event ∈ (stopToolBlocks sse).1, event.ofBlock = true := by
  rw [stopToolBlocks_indices]
  generalize indices : ((sse.blocks.toolStates.entries.filter fun entry => entry.2.started).map
    fun entry => entry.2.blockIndex) = stopped
  have listed (entry : Int × ToolCallState)
      (member : entry ∈ sse.blocks.toolStates.entries.filter fun entry => entry.2.started) :
      sse.blocks.toolStates.get? entry.1 = some entry.2 ∧ entry.2.started = true := by
    obtain ⟨present, started⟩ := List.mem_filter.mp member
    exact ⟨(Dict.get?_eq_some_iff ..).mpr present, started⟩
  have nodup : stopped.Nodup := by
    rw [← indices]
    refine List.Nodup.map_on (fun one first two second same => ?_) (List.Nodup.filter _ ?_)
    · obtain ⟨found, started⟩ := listed one first
      obtain ⟨found', started'⟩ := listed two second
      have keys : one.1 = two.1 := tracks.sane.distinct _ _ _ _ found found' started started' same
      rw [keys, found'] at found
      exact Prod.ext keys (Option.some.inj found).symm
    · exact List.Nodup.of_map Prod.fst sse.blocks.toolStates.keys_nodup
  have held : ∀ index ∈ stopped, index ∈ l.opened.map Prod.fst := by
    intro index member
    rw [← indices] at member
    obtain ⟨entry, present, rfl⟩ := List.mem_map.mp member
    obtain ⟨found, started⟩ := listed entry present
    exact List.mem_map.mpr ⟨(_, .toolUse), (tracks.opened ..).mpr ⟨_, _, found, started, rfl⟩, rfl⟩
  obtain ⟨l', ran, remaining⟩ := run_stops stopped nodup held
  refine ⟨l', ran, List.eq_nil_iff_forall_not_mem.mpr fun entry still => ?_, fun event member => ?_⟩
  · obtain ⟨opened, unstopped⟩ := (remaining entry).mp still
    obtain ⟨index, type⟩ := entry
    have tool : type = .toolUse := tracks.onlyTools closed _ opened
    subst tool
    obtain ⟨i, state, found, started, same⟩ := (tracks.opened ..).mp opened
    apply unstopped
    rw [← indices]
    exact List.mem_map.mpr ⟨(i, state), List.mem_filter.mpr ⟨(Dict.get?_eq_some_iff ..).mp found, started⟩, same⟩
  · obtain ⟨index, _, rfl⟩ := List.mem_map.mp member
    rfl

end SSEBuilder

end ClaudeProxy.Providers
