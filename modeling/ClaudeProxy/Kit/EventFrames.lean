import ClaudeProxy.Kit.EventStream

namespace Kit.EventStream

section Prefixes

variable {isBreak : Char → Bool}

/-- The lines that have ended stay as they are when more text comes; a line feed after a carriage return ends none. -/
theorem breakLines_grows (isBreak : Char → Bool) (carriage : isBreak '\r' = true) (received more : Text) :
    (breakLines isBreak received).1 <+: (breakLines isBreak (received ++ more)).1 := by
  induction received using breakLines.induct with
  | case1 => exact List.nil_prefix
  | case2 rest ih =>
    simp only [List.cons_append, breakLines]
    exact List.prefix_cons_inj _ |>.mpr ih
  | case3 c rest single ih =>
    by_cases isReturn : c = '\r'
    · subst isReturn
      have ended : (breakLines isBreak ('\r' :: rest)).1 = [] :: (breakLines isBreak rest).1 := by
        rw [breakLines.eq_3 isBreak '\r' rest single, putChar, if_pos carriage]
      rw [ended]
      cases rest with
      | nil =>
        cases more with
        | nil => simp [breakLines, putChar, carriage]
        | cons d more =>
          by_cases feed : d = '\n'
          · subst feed
            simp [breakLines]
          · have apart : breakLines isBreak ('\r' :: d :: more) = putChar isBreak '\r' (breakLines isBreak (d :: more)) := by
              apply breakLines.eq_3
              intro tail _ same
              exact feed (List.cons.inj same).1
            rw [List.singleton_append, apart, putChar, if_pos carriage]
            exact ⟨_, rfl⟩
      | cons d rest =>
        have other : d ≠ '\n' := fun same => single rest rfl (by rw [same])
        have apart : breakLines isBreak ('\r' :: (d :: rest ++ more)) =
            putChar isBreak '\r' (breakLines isBreak (d :: rest ++ more)) := by
          apply breakLines.eq_3
          intro tail _ same
          rw [List.cons_append] at same
          exact other (List.cons.inj same).1
        rw [List.cons_append, apart, putChar, if_pos carriage]
        exact List.prefix_cons_inj _ |>.mpr ih
    · rw [List.cons_append, breakLines_cons isReturn, breakLines_cons isReturn, putChar, putChar]
      split
      · exact List.prefix_cons_inj _ |>.mpr ih
      · obtain ⟨later, grown⟩ := ih
        rw [← grown]
        cases (breakLines isBreak rest).1 with
        | nil => exact List.nil_prefix
        | cons line lines => exact ⟨later, rfl⟩

end Prefixes

theorem unmarked_grows {lines more : List Text} : unmarked lines <+: unmarked (lines ++ more) := by
  cases lines with
  | nil => exact List.nil_prefix
  | cons line rest =>
    cases line with
    | nil => exact ⟨more, rfl⟩
    | cons c line =>
      simp only [List.cons_append, unmarked]
      split <;> exact ⟨more, rfl⟩

/-- What a reader has dispatched is not taken back by what comes later. -/
theorem eventsOf_grows {received whole : Text} (cut : received <+: whole) : eventsOf received <+: eventsOf whole := by
  obtain ⟨more, rfl⟩ := cut
  obtain ⟨lines, grown⟩ := breakLines_grows isLineEnd (by decide) received more
  obtain ⟨later, shape⟩ := @unmarked_grows (breakLines isLineEnd received).1 lines
  rw [eventsOf, eventsOf, readStream, readStream, ← grown, ← shape, readLines_append]
  exact List.prefix_append _ _

/-- An event as a server writes it: its name, its data on one line, and a blank line. -/
def frame (event : Event) : Text := "event: ".toList ++ event.name ++ '\n' :: ("data: ".toList ++ event.data ++ ['\n', '\n'])

/-- The name and the data are single lines, and there is a name. -/
structure Framable (event : Event) : Prop where
  named : event.name ≠ []
  name : ∀ c ∈ event.name, isLineEnd c = false
  data : ∀ c ∈ event.data, isLineEnd c = false

/-- The two lines of an event before the blank one. -/
def fieldLines (event : Event) : List Text := ["event: ".toList ++ event.name, "data: ".toList ++ event.data]

def frameLines (event : Event) : List Text := fieldLines event ++ [[]]

theorem flatMap_two_lines (first second : Text) :
    first ++ '\n' :: (second ++ ['\n', '\n']) = [first, second].flatMap (· ++ ['\n']) ++ ['\n'] := by
  simp

theorem frame_eq (event : Event) : frame event = (fieldLines event).flatMap (· ++ ['\n']) ++ ['\n'] :=
  flatMap_two_lines _ _

theorem frames_eq (events : List Event) : events.flatMap frame = (events.flatMap frameLines).flatMap (· ++ ['\n']) := by
  rw [List.flatMap_assoc]
  congr 1
  funext event
  rw [frame_eq, frameLines, List.flatMap_append]
  rfl

theorem inside_fieldLines {event : Event} (framable : Framable event) :
    ∀ line ∈ fieldLines event, ∀ c ∈ line, isLineEnd c = false := by
  have inner (text : Text) (all : (text.all fun c => !isLineEnd c) = true) : ∀ c ∈ text, isLineEnd c = false :=
    fun c member => by simpa using List.all_eq_true.mp all c member
  have name : ∀ c ∈ "event: ".toList, isLineEnd c = false := inner _ rfl
  have field : ∀ c ∈ "data: ".toList, isLineEnd c = false := inner _ rfl
  simp only [fieldLines, List.forall_mem_cons, List.forall_mem_append]
  exact ⟨⟨name, framable.name⟩, ⟨field, framable.data⟩, by simp⟩

theorem inside_frameLines {events : List Event} (framable : ∀ event ∈ events, Framable event) :
    ∀ line ∈ events.flatMap frameLines, ∀ c ∈ line, isLineEnd c = false := by
  intro line member
  obtain ⟨event, among, here⟩ := List.mem_flatMap.mp member
  rcases List.mem_append.mp here with field | blank
  · exact inside_fieldLines (framable event among) line field
  · rw [List.mem_singleton.mp blank]
    simp

theorem readLines_fieldLines (event : Event) (rest : List Text) :
    readLines ⟨[], []⟩ (fieldLines event ++ rest) = readLines ⟨event.name, [event.data]⟩ rest := by
  have name (pending : Pending) (value : Text) :
      readField pending ("event: ".toList ++ value) = { pending with eventType := value } := by
    rfl
  have data (pending : Pending) (value : Text) :
      readField pending ("data: ".toList ++ value) = { pending with data := pending.data ++ [value] } := by
    rfl
  have shown (label value : Text) (some : label ≠ []) : label ++ value ≠ [] := List.append_ne_nil_of_left_ne_nil some _
  rw [fieldLines, List.cons_append, readLines, if_neg (shown _ _ (by decide)), name, List.cons_append, readLines,
    if_neg (shown _ _ (by decide)), data]
  rfl

theorem readLines_frames {events : List Event} (framable : ∀ event ∈ events, Framable event) (rest : List Text) :
    readLines ⟨[], []⟩ (events.flatMap frameLines ++ rest) =
      (events ++ (readLines ⟨[], []⟩ rest).1, (readLines ⟨[], []⟩ rest).2) := by
  induction events with
  | nil => rfl
  | cons event events ih =>
    obtain ⟨first, later⟩ := List.forall_mem_cons.mp framable
    have dispatched : dispatch ⟨event.name, [event.data]⟩ = [event] := by
      simp [dispatch, first.named, joinData]
    rw [List.flatMap_cons, frameLines, List.append_assoc, List.append_assoc, readLines_fieldLines, List.singleton_append,
      readLines, if_pos rfl, ih later, dispatched]
    rfl

theorem unmarked_fieldLines (event : Event) (rest : List Text) :
    unmarked (fieldLines event ++ rest) = fieldLines event ++ rest := by
  have first : 'e' ≠ byteOrderMark := by decide
  simp [fieldLines, unmarked, first]

theorem unmarked_frames (events : List Event) (event : Event) :
    unmarked (events.flatMap frameLines ++ fieldLines event) = events.flatMap frameLines ++ fieldLines event := by
  cases events with
  | nil =>
    have plain := unmarked_fieldLines event []
    rwa [List.append_nil] at plain
  | cons first rest =>
    rw [List.flatMap_cons, frameLines, List.append_assoc, List.append_assoc]
    exact unmarked_fieldLines first _

/-- A reader gets back the events that were framed. -/
theorem eventsOf_frames {events : List Event} (framable : ∀ event ∈ events, Framable event) :
    eventsOf (events.flatMap frame) = events := by
  have joined := breakLines_join (by decide) (by decide) (inside_frameLines framable) []
  rw [List.append_nil, breakLines, List.append_nil] at joined
  have plain : unmarked (events.flatMap frameLines) = events.flatMap frameLines := by
    cases events with
    | nil => rfl
    | cons first rest =>
      rw [List.flatMap_cons, frameLines, List.append_assoc]
      exact unmarked_fieldLines first _
  have read := readLines_frames framable []
  rw [List.append_nil] at read
  rw [eventsOf, frames_eq, joined, readStream, plain, read]
  exact List.append_nil _

/-- Without its last line feed an event is not dispatched. -/
theorem eventsOf_unfinished {events : List Event} {event : Event} (framable : ∀ other ∈ events ++ [event], Framable other) :
    eventsOf (events.flatMap frame ++ (fieldLines event).flatMap (· ++ ['\n'])) = events := by
  rw [List.forall_mem_append] at framable
  obtain ⟨before, last⟩ := framable
  have this := List.forall_mem_singleton.mp last
  have inside : ∀ line ∈ events.flatMap frameLines ++ fieldLines event, ∀ c ∈ line, isLineEnd c = false := by
    rw [List.forall_mem_append]
    exact ⟨inside_frameLines before, inside_fieldLines this⟩
  have joined := breakLines_join (by decide) (by decide) inside []
  rw [List.append_nil, breakLines, List.append_nil, List.flatMap_append, ← frames_eq] at joined
  have read := readLines_frames before (fieldLines event)
  have pending := readLines_fieldLines event []
  rw [List.append_nil] at pending
  rw [eventsOf, joined, readStream, unmarked_frames, read, pending]
  exact List.append_nil _

theorem take_frames_grows (events : List Event) (k : Nat) : (events.take k).flatMap frame <+: events.flatMap frame := by
  have split : events.flatMap frame = (events.take k).flatMap frame ++ (events.drop k).flatMap frame := by
    rw [← List.flatMap_append, List.take_append_drop]
  rw [split]
  exact List.prefix_append _ _

/-- From a stream that is cut off anywhere a reader has the events whose frames have arrived as a whole, and no other. -/
theorem eventsOf_received {events : List Event} (framable : ∀ event ∈ events, Framable event) {received : Text}
    (cut : received <+: events.flatMap frame) :
    ∃ n ≤ events.length, eventsOf received = events.take n ∧
      ∀ k ≤ events.length, (events.take k).flatMap frame <+: received ↔ k ≤ n := by
  have among := eventsOf_grows cut
  rw [eventsOf_frames framable] at among
  have shape := List.prefix_iff_eq_take.mp among
  refine ⟨(eventsOf received).length, among.length_le, shape, ?_⟩
  intro k bound
  have some (j : Nat) : ∀ event ∈ events.take j, Framable event := fun event mem => framable event (List.mem_of_mem_take mem)
  constructor
  · intro arrived
    have seen := (eventsOf_grows arrived).length_le
    rw [eventsOf_frames (some k), List.length_take_of_le bound] at seen
    exact seen
  · intro within
    rcases List.prefix_or_prefix_of_prefix (take_frames_grows events k) cut with here | short
    · exact here
    · cases k with
      | zero => exact List.nil_prefix
      | succ j =>
        have taken : events.take (j + 1) = events.take j ++ [events[j]] := by simp
        have apart : (events.take (j + 1)).flatMap frame =
            (events.take j).flatMap frame ++ (fieldLines events[j]).flatMap (· ++ ['\n']) ++ ['\n'] := by
          rw [taken, List.flatMap_append, List.flatMap_singleton, frame_eq, List.append_assoc]
        rw [apart] at short ⊢
        rcases List.prefix_concat_iff.mp short with whole | unfinished
        · exact whole ▸ List.prefix_rfl
        · exfalso
          have seen := (eventsOf_grows unfinished).length_le
          rw [eventsOf_unfinished (taken ▸ some (j + 1)), List.length_take] at seen
          omega

end Kit.EventStream
