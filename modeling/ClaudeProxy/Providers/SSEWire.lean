import ClaudeProxy.Kit.EventFrames
import ClaudeProxy.Kit.JsonAscii
import ClaudeProxy.Providers.OpenAICompat

namespace ClaudeProxy.Providers

open Kit
open Kit.EventStream (eventsOf)

/-- `_format_event` -/
def formatEvent (eventType : Str) (data : Json) : Str :=
  "event: ".toList ++ eventType ++ '\n' :: ("data: ".toList ++ data.dumps ++ ['\n', '\n'])

def ContentBlock.toJson : ContentBlock → Json
  | .thinking content => .object [("type".toList, .string "thinking".toList), ("thinking".toList, .string content)]
  | .text content => .object [("type".toList, .string "text".toList), ("text".toList, .string content)]
  | .toolUse id name => .object [("type".toList, .string "tool_use".toList), ("id".toList, .string id),
      ("name".toList, .string name), ("input".toList, .object [])]

def Delta.toJson : Delta → Json
  | .thinkingDelta thinking =>
    .object [("type".toList, .string "thinking_delta".toList), ("thinking".toList, .string thinking)]
  | .textDelta text => .object [("type".toList, .string "text_delta".toList), ("text".toList, .string text)]
  | .inputJsonDelta partialJson =>
    .object [("type".toList, .string "input_json_delta".toList), ("partial_json".toList, .string partialJson)]

namespace Event

def type : Event → Str
  | .messageStart .. => "message_start".toList
  | .messageDelta .. => "message_delta".toList
  | .messageStop => "message_stop".toList
  | .contentBlockStart .. => "content_block_start".toList
  | .contentBlockDelta .. => "content_block_delta".toList
  | .contentBlockStop .. => "content_block_stop".toList

/-- The data of an event besides its type. -/
def members : Event → List (Str × Json)
  | .messageStart id model inputTokens =>
    [("message".toList, .object [("id".toList, .string id), ("type".toList, .string "message".toList),
      ("role".toList, .string "assistant".toList), ("content".toList, .array []), ("model".toList, .string model),
      ("stop_reason".toList, .null), ("stop_sequence".toList, .null),
      ("usage".toList, .object [("input_tokens".toList, .integer inputTokens), ("output_tokens".toList, .integer 1)])])]
  | .messageDelta stopReason inputTokens outputTokens =>
    [("delta".toList, .object [("stop_reason".toList, .string stopReason), ("stop_sequence".toList, .null)]),
      ("usage".toList,
        .object [("input_tokens".toList, .integer inputTokens), ("output_tokens".toList, .integer outputTokens)])]
  | .messageStop => []
  | .contentBlockStart index contentBlock =>
    [("index".toList, .integer index), ("content_block".toList, contentBlock.toJson)]
  | .contentBlockDelta index delta => [("index".toList, .integer index), ("delta".toList, delta.toJson)]
  | .contentBlockStop index => [("index".toList, .integer index)]

def data (event : Event) : Json := .object (("type".toList, .string event.type) :: event.members)

def sse (event : Event) : Str := formatEvent event.type event.data

def numbers : Event → List Int
  | .messageStart _ _ inputTokens => [inputTokens]
  | .messageDelta _ inputTokens outputTokens => [inputTokens, outputTokens]
  | .messageStop => []
  | .contentBlockStart index _ | .contentBlockDelta index _ | .contentBlockStop index => [index]

/-- `json` writes integers of at most 4300 digits. -/
def Writable (event : Event) : Prop := ∀ n ∈ event.numbers, (Nat.toDigits 10 n.natAbs).length ≤ 4300

instance (event : Event) : Decidable event.Writable := inferInstanceAs (Decidable (∀ n ∈ event.numbers, _))

end Event

/-- The text of a response. -/
def wire (events : List Event) : Str := events.flatMap Event.sse

/- A client's side of the protocol. -/
section Client

def field (key : String) : Json → Option Json
  | .object members => Json.getMember key.toList members
  | _ => none

def textField (key : String) (json : Json) : Option Str :=
  match field key json with
  | some (.string text) => some text
  | _ => none

def intField (key : String) (json : Json) : Option Int :=
  match field key json with
  | some (.integer value) => some value
  | _ => none

def readBlock (json : Json) : Option ContentBlock := do
  let type ← textField "type" json
  if type = "thinking".toList then (textField "thinking" json).map .thinking
  else if type = "text".toList then (textField "text" json).map .text
  else if type = "tool_use".toList then return .toolUse (← textField "id" json) (← textField "name" json)
  else none

def readDelta (json : Json) : Option Delta := do
  let type ← textField "type" json
  if type = "thinking_delta".toList then (textField "thinking" json).map .thinkingDelta
  else if type = "text_delta".toList then (textField "text" json).map .textDelta
  else if type = "input_json_delta".toList then (textField "partial_json" json).map .inputJsonDelta
  else none

def readData (type : Str) (json : Json) : Option Event := do
  if type = "message_start".toList then
    let message ← field "message" json
    let usage ← field "usage" message
    return .messageStart (← textField "id" message) (← textField "model" message) (← intField "input_tokens" usage)
  else if type = "message_delta".toList then
    let delta ← field "delta" json
    let usage ← field "usage" json
    return .messageDelta (← textField "stop_reason" delta) (← intField "input_tokens" usage)
      (← intField "output_tokens" usage)
  else if type = "message_stop".toList then return .messageStop
  else if type = "content_block_start".toList then
    return .contentBlockStart (← intField "index" json) (← readBlock (← field "content_block" json))
  else if type = "content_block_delta".toList then
    return .contentBlockDelta (← intField "index" json) (← readDelta (← field "delta" json))
  else if type = "content_block_stop".toList then return .contentBlockStop (← intField "index" json)
  else none

/-- The name of the event and the type in its data must agree. -/
def readEvent (event : EventStream.Event) : Option Event := do
  let json ← Json.loads event.data
  let type ← textField "type" json
  if type = event.name then readData type json else none

end Client

theorem readData_data (event : Event) : readData event.type event.data = some event := by
  cases event with
  | messageStart => rfl
  | messageDelta => rfl
  | messageStop => rfl
  | contentBlockStart index contentBlock => cases contentBlock <;> rfl
  | contentBlockDelta index delta => cases delta <;> rfl
  | contentBlockStop => rfl

section Reading

/-- An object whose keys are literals. -/
theorem decoded_fields (keys : List String) (values : List Json) (distinct : keys.Nodup)
    (enough : keys.length ≤ values.length) (each : ∀ value ∈ values, Json.Decoded value) :
    Json.Decoded (.object ((keys.map String.toList).zip values)) := by
  rw [Json.decoded_object]
  constructor
  · have first := @List.map_fst_zip _ _ (keys.map String.toList) values (by rwa [List.length_map])
    rw [first]
    exact distinct.map fun _ _ same => String.toList_injective same
  · intro member mem
    exact each _ (List.of_mem_zip mem).2

theorem decoded_string (text : Str) : Json.Decoded (.string text) := trivial

theorem decoded_block (contentBlock : ContentBlock) : Json.Decoded contentBlock.toJson := by
  cases contentBlock with
  | thinking content =>
    exact decoded_fields ["type", "thinking"] [.string _, .string content] (by decide)
      (Nat.le_refl 2) (by simp [decoded_string])
  | text content =>
    exact decoded_fields ["type", "text"] [.string _, .string content] (by decide)
      (Nat.le_refl 2) (by simp [decoded_string])
  | toolUse id name =>
    have input : Json.Decoded (.object []) := ⟨List.nodup_nil, trivial⟩
    exact decoded_fields ["type", "id", "name", "input"]
      [.string _, .string id, .string name, .object []] (by decide) (Nat.le_refl 4) (by simp [decoded_string, input])

theorem decoded_delta (delta : Delta) : Json.Decoded delta.toJson := by
  cases delta with
  | thinkingDelta content =>
    exact decoded_fields ["type", "thinking"] [.string _, .string content] (by decide)
      (Nat.le_refl 2) (by simp [decoded_string])
  | textDelta content =>
    exact decoded_fields ["type", "text"] [.string _, .string content] (by decide)
      (Nat.le_refl 2) (by simp [decoded_string])
  | inputJsonDelta content =>
    exact decoded_fields ["type", "partial_json"] [.string _, .string content] (by decide)
      (Nat.le_refl 2) (by simp [decoded_string])

theorem decoded_usage {inputTokens outputTokens : Int} (input : Json.Decoded (.integer inputTokens))
    (output : Json.Decoded (.integer outputTokens)) : Json.Decoded
      (.object [("input_tokens".toList, .integer inputTokens), ("output_tokens".toList, .integer outputTokens)]) :=
  decoded_fields ["input_tokens", "output_tokens"]
    [.integer inputTokens, .integer outputTokens] (by decide) (Nat.le_refl 2) (by simp [input, output])

theorem decoded_data {event : Event} (writable : event.Writable) : Json.Decoded event.data := by
  have number {n : Int} (mem : n ∈ event.numbers) : Json.Decoded (.integer n) := writable n mem
  cases event with
  | messageStart id model inputTokens =>
    have one : Json.Decoded (.integer 1) := show (Nat.toDigits 10 1).length ≤ 4300 by decide
    have usage := decoded_usage (number (List.mem_singleton_self _)) one
    have null : Json.Decoded .null := trivial
    have content : Json.Decoded (.array []) := trivial
    have message := decoded_fields
      ["id", "type", "role", "content", "model", "stop_reason", "stop_sequence", "usage"]
      [.string id, .string "message".toList, .string "assistant".toList, .array [], .string model, .null, .null,
        .object [("input_tokens".toList, .integer inputTokens), ("output_tokens".toList, .integer 1)]] (by decide) (Nat.le_refl 8)
      (by
        simp only [List.forall_mem_cons]
        exact ⟨decoded_string _, decoded_string _, decoded_string _, content, decoded_string _, null, null, usage,
          List.forall_mem_nil _⟩)
    exact decoded_fields ["type", "message"] [.string _, _] (by decide) (Nat.le_refl 2)
      (List.forall_mem_cons.mpr ⟨decoded_string _, List.forall_mem_singleton.mpr message⟩)
  | messageDelta stopReason inputTokens outputTokens =>
    have usage := decoded_usage (number List.mem_cons_self) (number (List.mem_cons_of_mem _ List.mem_cons_self))
    have null : Json.Decoded .null := trivial
    have delta := decoded_fields ["stop_reason", "stop_sequence"]
      [.string stopReason, .null] (by decide) (Nat.le_refl 2) (by simp [decoded_string, null])
    exact decoded_fields ["type", "delta", "usage"] [.string _, _, _] (by decide) (Nat.le_refl 3)
      (List.forall_mem_cons.mpr ⟨decoded_string _,
        List.forall_mem_cons.mpr ⟨delta, List.forall_mem_singleton.mpr usage⟩⟩)
  | messageStop =>
    exact decoded_fields ["type"] [.string _] (by decide) (Nat.le_refl 1) (by simp [decoded_string])
  | contentBlockStart index contentBlock =>
    have block := decoded_block contentBlock
    exact decoded_fields ["type", "index", "content_block"]
      [.string _, .integer index, contentBlock.toJson] (by decide) (Nat.le_refl 3)
      (by simp [decoded_string, block, number (List.mem_singleton_self index)])
  | contentBlockDelta index delta =>
    have content := decoded_delta delta
    exact decoded_fields ["type", "index", "delta"]
      [.string _, .integer index, delta.toJson] (by decide) (Nat.le_refl 3)
      (by simp [decoded_string, content, number (List.mem_singleton_self index)])
  | contentBlockStop index =>
    exact decoded_fields ["type", "index"] [.string _, .integer index] (by decide) (Nat.le_refl 2)
      (by simp [decoded_string, number (List.mem_singleton_self index)])

end Reading

/-- A client reads from the frame of an event the event itself. -/
theorem readEvent_data {event : Event} (writable : event.Writable) :
    readEvent ⟨event.type, event.data.dumps⟩ = some event := by
  have typed : textField "type" event.data = some event.type := rfl
  rw [readEvent, Json.loads_dumps (decoded_data writable)]
  simp only [Option.bind_eq_bind, Option.bind_some, typed, if_true]
  exact readData_data event

theorem printable_data (event : Event) : AllPrintable event.data.dumps := by
  apply Json.printable_dumps
  have none : event.data.literals = [] := by
    cases event with
    | contentBlockStart index contentBlock => cases contentBlock <;> rfl
    | contentBlockDelta index delta => cases delta <;> rfl
    | _ => rfl
  rw [none]
  simp

theorem isLineEnd_printable {c : Char} (printable : IsPrintable c) : EventStream.isLineEnd c = false := by
  have ends : '\n'.toNat = 10 ∧ '\r'.toNat = 13 := ⟨rfl, rfl⟩
  unfold EventStream.isLineEnd
  rw [decide_eq_false_iff_not]
  rintro (rfl | rfl)
  · exact absurd printable (by decide)
  · exact absurd printable (by decide)

theorem printable_types : ∀ type ∈ ["message_start", "message_delta", "message_stop", "content_block_start",
    "content_block_delta", "content_block_stop"].map String.toList, type ≠ [] ∧ AllPrintable type := by
  decide +kernel

theorem printable_type (event : Event) : event.type ≠ [] ∧ AllPrintable event.type := by
  apply printable_types
  rw [List.mem_map]
  cases event with
  | messageStart => exact ⟨"message_start", by simp, rfl⟩
  | messageDelta => exact ⟨"message_delta", by simp, rfl⟩
  | messageStop => exact ⟨"message_stop", by simp, rfl⟩
  | contentBlockStart => exact ⟨"content_block_start", by simp, rfl⟩
  | contentBlockDelta => exact ⟨"content_block_delta", by simp, rfl⟩
  | contentBlockStop => exact ⟨"content_block_stop", by simp, rfl⟩

/-- The event as the server-sent events protocol has it. -/
def Event.framed (event : Event) : EventStream.Event := ⟨event.type, event.data.dumps⟩

theorem framable (event : Event) : EventStream.Framable event.framed where
  named := (printable_type event).1
  name c member := isLineEnd_printable ((printable_type event).2 c member)
  data c member := isLineEnd_printable (printable_data event c member)

theorem wire_eq (events : List Event) : wire events = (events.map Event.framed).flatMap EventStream.frame := by
  rw [List.flatMap_map]
  rfl

theorem ascii_sse (event : Event) : ∀ c ∈ event.sse, c.toNat < 128 := by
  have printed {text : Str} (printable : AllPrintable text) : ∀ c ∈ text, c.toNat < 128 := fun c member =>
    Nat.lt_succ_of_lt (printable c member).2
  have name := printed (printable_type event).2
  have data := printed (printable_data event)
  have label : AllPrintable "event: ".toList := by decide +kernel
  have dataLabel : AllPrintable "data: ".toList := by decide +kernel
  have feed : '\n'.toNat < 128 := by decide
  have feeds : ∀ c ∈ ['\n', '\n'], c.toNat < 128 :=
    List.forall_mem_cons.mpr ⟨feed, List.forall_mem_singleton.mpr feed⟩
  have later := List.forall_mem_append.mpr ⟨List.forall_mem_append.mpr ⟨printed dataLabel, data⟩, feeds⟩
  exact List.forall_mem_append.mpr
    ⟨List.forall_mem_append.mpr ⟨printed label, name⟩, List.forall_mem_cons.mpr ⟨feed, later⟩⟩

/-- A text block that is cut off within its first delta. -/
def sampleEvents : List Event :=
  [.messageStart "msg_1".toList "m".toList 3, .contentBlockStart 0 (.text []),
    .contentBlockDelta 0 (.textDelta "a\nb".toList)]

/-- From a response that breaks off at any byte a client reads exactly the events whose text has arrived as a whole. -/
theorem readEvents_received {events : List Event} (writable : ∀ event ∈ events, event.Writable) {received : Str}
    (cut : received <+: wire events) :
    (∀ c ∈ wire events, c.toNat < 128) ∧
    ∃ n ≤ events.length, (eventsOf received).map readEvent = (events.take n).map some ∧
      ∀ k ≤ events.length, wire (events.take k) <+: received ↔ k ≤ n := by
  constructor
  · intro c member
    obtain ⟨event, -, here⟩ := List.mem_flatMap.mp member
    exact ascii_sse event c here
  · rw [wire_eq] at cut
    have frames : ∀ frame ∈ events.map Event.framed, EventStream.Framable frame := by
      intro frame member
      obtain ⟨event, -, rfl⟩ := List.mem_map.mp member
      exact framable event
    obtain ⟨n, bound, read, arrived⟩ := EventStream.eventsOf_received frames cut
    rw [List.length_map] at bound arrived
    refine ⟨n, bound, ?_, ?_⟩
    · rw [read, ← List.map_take, List.map_map]
      apply List.map_congr_left
      intro event member
      exact readEvent_data (writable event (List.mem_of_mem_take member))
    · intro k within
      rw [wire_eq, List.map_take]
      exact arrived k within

theorem readEvents_received_sample :
    (∀ event ∈ sampleEvents, event.Writable) ∧ (wire sampleEvents).take 400 <+: wire sampleEvents ∧
    ∃ n ≤ 3, (eventsOf ((wire sampleEvents).take 400)).map readEvent = (sampleEvents.take n).map some :=
  have writable : ∀ event ∈ sampleEvents, event.Writable := by decide +kernel
  have cut : (wire sampleEvents).take 400 <+: wire sampleEvents := List.take_prefix 400 _
  have ⟨n, bound, read, _⟩ := (readEvents_received writable cut).2
  ⟨writable, cut, n, bound, read⟩

end ClaudeProxy.Providers
