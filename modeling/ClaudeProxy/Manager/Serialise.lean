import ClaudeProxy.Kit.JsonText
import ClaudeProxy.Kit.Traverse
import ClaudeProxy.Manager.Repository

namespace ClaudeProxy.Manager

open Kit Trees

abbrev Members := List (List Char × Json)

/-- `datetime.isoformat` and `datetime.fromisoformat`. -/
structure IsoFormat where
  isoformat : Timestamp → List Char
  fromisoformat : List Char → Option Timestamp
  inverse : ∀ time, fromisoformat (isoformat time) = some time
  nonempty : ∀ time, isoformat time ≠ []

def textToJson (text : String) : Json := .string text.toList

def optionalToJson (text : Option String) : Json := (text.map textToJson).getD .null

def idToJson (id : MessageId) : Json := textToJson id.1

def optionalIdToJson (id : Option MessageId) : Json := optionalToJson (id.map Subtype.val)

def stateValue : MessageState → String
  | .pending => "pending"
  | .inProgress => "in_progress"
  | .completed => "completed"
  | .error => "error"

def incomingToDict (incoming : IncomingMessage) : Json :=
  .object [
    ("text".toList, textToJson incoming.text),
    ("chat_id".toList, textToJson incoming.chatId),
    ("user_id".toList, textToJson incoming.userId),
    ("message_id".toList, idToJson incoming.messageId),
    ("platform".toList, textToJson incoming.platform),
    ("reply_to_message_id".toList, optionalIdToJson incoming.replyToMessageId),
    ("message_thread_id".toList, optionalToJson incoming.messageThreadId),
    ("username".toList, optionalToJson incoming.username)]

def nodeToDict (iso : IsoFormat) (node : MessageNode) : Json :=
  .object [
    ("node_id".toList, idToJson node.nodeId),
    ("incoming".toList, incomingToDict node.incoming),
    ("status_message_id".toList, idToJson node.statusMessageId),
    ("state".toList, textToJson (stateValue node.state)),
    ("parent_id".toList, optionalIdToJson node.parentId),
    ("session_id".toList, optionalToJson node.sessionId),
    ("children_ids".toList, .array (node.childrenIds.map idToJson)),
    ("created_at".toList, .string (iso.isoformat node.createdAt)),
    ("completed_at".toList, (node.completedAt.map fun time => Json.string (iso.isoformat time)).getD .null),
    ("error_message".toList, optionalToJson node.errorMessage)]

def entryToDict (iso : IsoFormat) (entry : MessageId × MessageNode) : List Char × Json :=
  (entry.1.1.toList, nodeToDict iso entry.2)

def treeToDict (iso : IsoFormat) (tree : MessageTree) : Json :=
  .object [
    ("root_id".toList, idToJson tree.rootId),
    ("nodes".toList, .object (tree.nodes.entries.map (entryToDict iso)))]

def repositoryToDict (iso : IsoFormat) (repo : TreeRepository MessageTree) : Json :=
  .object [
    ("trees".toList, .object (repo.trees.entries.map fun entry => (entry.1.1.toList, treeToDict iso entry.2))),
    ("node_to_tree".toList, .object (repo.nodeToTree.entries.map fun entry => (entry.1.1.toList, idToJson entry.2)))]

/-- The value of a key where it is a string. -/
def asText : Json → Option String
  | .string value => some (String.ofList value)
  | _ => none

def asId (value : Json) : Option MessageId :=
  (asText value).bind fun text => if given : text ≠ "" then some ⟨text, given⟩ else none

def asMembers : Json → Option Members
  | .object members => some members
  | _ => none

/-- `data[key]`; none is the `KeyError`. -/
def required (data : Members) (key : String) : Option Json := Json.getMember key.toList data

/-- `data.get(key)` of an optional string. -/
def optionalText (data : Members) (key : String) : Option (Option String) :=
  match Json.getMember key.toList data with
  | none | some .null => some none
  | some value => (asText value).map some

def optionalId (data : Members) (key : String) : Option (Option MessageId) :=
  match Json.getMember key.toList data with
  | none | some .null => some none
  | some value => (asId value).map some

/-- `MessageState(value)`; none is the `ValueError`. -/
def stateOfValue (value : String) : Option MessageState :=
  if value = "pending" then some .pending
  else if value = "in_progress" then some .inProgress
  else if value = "completed" then some .completed
  else if value = "error" then some .error
  else none

def incomingFromDict (value : Json) : Option IncomingMessage := do
  let data ← asMembers value
  let text ← (required data "text").bind asText
  let chatId ← (required data "chat_id").bind asText
  let userId ← (required data "user_id").bind asText
  let messageId ← (required data "message_id").bind asId
  let platform ← (required data "platform").bind asText
  let replyToMessageId ← optionalId data "reply_to_message_id"
  let messageThreadId ← optionalText data "message_thread_id"
  let username ← optionalText data "username"
  return ⟨text, chatId, userId, messageId, platform, replyToMessageId, messageThreadId, username, none⟩

def asTime (iso : IsoFormat) : Json → Option Timestamp
  | .string value => iso.fromisoformat value
  | _ => none

/-- `datetime.fromisoformat(data["completed_at"]) if data.get("completed_at") else None` -/
def completedAtField (iso : IsoFormat) (data : Members) : Option (Option Timestamp) :=
  let value := Json.get data "completed_at" .null
  if value.isTruthy then (asTime iso value).map some else some none

/-- `data.get("children_ids", [])` -/
def childrenField (data : Members) : Option (List MessageId) :=
  match Json.get data "children_ids" (.array []) with
  | .array items => items.mapM asId
  | _ => none

def nodeFromDict (iso : IsoFormat) (value : Json) : Option MessageNode := do
  let data ← asMembers value
  let incoming ← (required data "incoming").bind incomingFromDict
  let nodeId ← (required data "node_id").bind asId
  let statusMessageId ← (required data "status_message_id").bind asId
  let state ← ((required data "state").bind asText).bind stateOfValue
  let parentId ← optionalId data "parent_id"
  let sessionId ← optionalText data "session_id"
  let childrenIds ← childrenField data
  let createdAt ← (required data "created_at").bind (asTime iso)
  let completedAt ← completedAtField iso data
  let errorMessage ← optionalText data "error_message"
  return ⟨nodeId, incoming, statusMessageId, state, parentId, sessionId, childrenIds, createdAt, completedAt, errorMessage⟩

/-- The loop of `MessageTree.from_dict` over the nodes apart from the root. -/
def addNodesFromDict (iso : IsoFormat) (rootId : MessageId) : Members → MessageTree → Option MessageTree
  | [], tree => some tree
  | (nodeId, data) :: rest, tree =>
    if nodeId = rootId.1.toList then addNodesFromDict iso rootId rest tree
    else do
      let node ← nodeFromDict iso data
      addNodesFromDict iso rootId rest (addNodeFromDict tree node)

def treeFromDict (iso : IsoFormat) (value : Json) : Option MessageTree := do
  let data ← asMembers value
  let rootId ← (required data "root_id").bind asId
  let nodes ← (required data "nodes").bind asMembers
  let root ← (Json.getMember rootId.1.toList nodes).bind (nodeFromDict iso)
  addNodesFromDict iso rootId nodes (.new root)

/-- A dictionary of the decoded members, later members over earlier ones. -/
def dictOf {ν : Type} (decode : Json → Option ν) : Members → Dict MessageId ν → Option (Dict MessageId ν)
  | [], dict => some dict
  | (key, value) :: rest, dict => do
    let id ← asId (.string key)
    let value ← decode value
    dictOf decode rest (dict.set id value)

def repositoryFromDict (iso : IsoFormat) (value : Json) : Option (TreeRepository MessageTree) := do
  let data ← asMembers value
  let treeData ← asMembers (Json.get data "trees" (.object []))
  let trees ← dictOf (treeFromDict iso) treeData .empty
  let mappings ← asMembers (Json.get data "node_to_tree" (.object []))
  let nodeToTree ← dictOf asId mappings .empty
  return ⟨trees, nodeToTree⟩

section Fields

theorem asText_textToJson (text : String) : asText (textToJson text) = some text := by
  rw [textToJson, asText, String.ofList_toList]

theorem asId_idToJson (id : MessageId) : asId (idToJson id) = some id := by
  rcases id with ⟨text, given⟩
  simp [asId, idToJson, asText_textToJson, given]

theorem optionalText_spec {data : Members} {key : String} {text : Option String}
    (field : Json.getMember key.toList data = some (optionalToJson text)) : optionalText data key = some text := by
  rw [optionalText, field]
  cases text with
  | none => rfl
  | some text => exact congrArg (Option.map some) (asText_textToJson text)

theorem optionalId_spec {data : Members} {key : String} {id : Option MessageId}
    (field : Json.getMember key.toList data = some (optionalIdToJson id)) : optionalId data key = some id := by
  rw [optionalId, field]
  cases id with
  | none => rfl
  | some id => exact congrArg (Option.map some) (asId_idToJson id)

theorem stateOfValue_stateValue (state : MessageState) : stateOfValue (stateValue state) = some state := by
  cases state <;> decide

theorem mapM_asId (ids : List MessageId) : (ids.map idToJson).mapM asId = some ids := by
  induction ids with
  | nil => rfl
  | cons id ids ih =>
    rw [List.map_cons, List.mapM_cons, asId_idToJson, ih]
    rfl

/-- The pre-sent status message is not written. -/
theorem incomingFromDict_incomingToDict (incoming : IncomingMessage) :
    incomingFromDict (incomingToDict incoming) = some { incoming with statusMessageId := none } := by
  unfold incomingToDict
  generalize eq : ([("text".toList, textToJson incoming.text), _, _, _, _, _, _, _] : Members) = data
  have text : required data "text" = some (textToJson incoming.text) := by rw [← eq]; rfl
  have chatId : required data "chat_id" = some (textToJson incoming.chatId) := by rw [← eq]; rfl
  have userId : required data "user_id" = some (textToJson incoming.userId) := by rw [← eq]; rfl
  have messageId : required data "message_id" = some (idToJson incoming.messageId) := by rw [← eq]; rfl
  have platform : required data "platform" = some (textToJson incoming.platform) := by rw [← eq]; rfl
  have reply : optionalId data "reply_to_message_id" = some incoming.replyToMessageId := by
    apply optionalId_spec
    rw [← eq]
    rfl
  have thread : optionalText data "message_thread_id" = some incoming.messageThreadId := by
    apply optionalText_spec
    rw [← eq]
    rfl
  have username : optionalText data "username" = some incoming.username := by
    apply optionalText_spec
    rw [← eq]
    rfl
  simp only [incomingFromDict, asMembers, text, chatId, userId, messageId, platform, reply, thread, username,
    asText_textToJson, asId_idToJson, Option.bind_eq_bind, Option.bind_some]
  rfl

theorem completedAtField_spec {iso : IsoFormat} {data : Members} {time : Option Timestamp}
    (field : Json.getMember "completed_at".toList data =
      some ((time.map fun time => Json.string (iso.isoformat time)).getD .null)) :
    completedAtField iso data = some time := by
  have value : Json.get data "completed_at" .null = (time.map fun time => Json.string (iso.isoformat time)).getD .null := by
    rw [Json.get, field]
    rfl
  rw [completedAtField, value]
  cases time with
  | none => rfl
  | some time =>
    have truthy : (Json.string (iso.isoformat time)).isTruthy = true := by
      simp [Json.isTruthy, iso.nonempty time]
    simp [truthy, asTime, iso.inverse]

theorem nodeFromDict_nodeToDict (iso : IsoFormat) (node : MessageNode) :
    nodeFromDict iso (nodeToDict iso node) = some (reloaded node) := by
  unfold nodeToDict
  generalize eq : ([("node_id".toList, idToJson node.nodeId), _, _, _, _, _, _, _, _, _] : Members) = data
  have nodeId : required data "node_id" = some (idToJson node.nodeId) := by rw [← eq]; rfl
  have incoming : required data "incoming" = some (incomingToDict node.incoming) := by rw [← eq]; rfl
  have status : required data "status_message_id" = some (idToJson node.statusMessageId) := by rw [← eq]; rfl
  have state : required data "state" = some (textToJson (stateValue node.state)) := by rw [← eq]; rfl
  have createdAt : required data "created_at" = some (.string (iso.isoformat node.createdAt)) := by rw [← eq]; rfl
  have parentId : optionalId data "parent_id" = some node.parentId := by
    apply optionalId_spec
    rw [← eq]
    rfl
  have sessionId : optionalText data "session_id" = some node.sessionId := by
    apply optionalText_spec
    rw [← eq]
    rfl
  have errorMessage : optionalText data "error_message" = some node.errorMessage := by
    apply optionalText_spec
    rw [← eq]
    rfl
  have completedAt : completedAtField iso data = some node.completedAt := by
    apply completedAtField_spec
    rw [← eq]
    rfl
  have children : childrenField data = some node.childrenIds := by
    have value : Json.get data "children_ids" (.array []) = .array (node.childrenIds.map idToJson) := by
      rw [← eq]
      rfl
    rw [childrenField, value]
    exact mapM_asId node.childrenIds
  simp only [nodeFromDict, asMembers, nodeId, incoming, status, state, parentId, sessionId, children, createdAt,
    completedAt, errorMessage, asId_idToJson, incomingFromDict_incomingToDict, asText_textToJson,
    stateOfValue_stateValue, asTime, iso.inverse, Option.bind_eq_bind, Option.bind_some]
  rfl

end Fields

section Trees

variable {iso : IsoFormat}

theorem chars_injective {left right : MessageId} : left.1.toList = right.1.toList ↔ left = right := by
  rw [String.toList_inj, Subtype.ext_iff]

theorem asId_chars (id : MessageId) : asId (.string id.1.toList) = some id := asId_idToJson id

def written {ν : Type} (encode : ν → Json) (entries : List (MessageId × ν)) : Members :=
  entries.map fun entry => (entry.1.1.toList, encode entry.2)

theorem getMember_written {ν : Type} (encode : ν → Json) (entries : List (MessageId × ν)) (id : MessageId) :
    Json.getMember id.1.toList (written encode entries) =
      ((entries.find? fun entry => entry.1 = id).map Prod.snd).map encode := by
  induction entries with
  | nil => rfl
  | cons entry rest ih =>
    have keys : (entry.1.1.toList = id.1.toList) ↔ entry.1 = id := chars_injective
    by_cases same : entry.1 = id
    · simp [written, Json.getMember, same]
    · have other : ¬ entry.1.1.toList = id.1.toList := fun chars => same (keys.mp chars)
      simp only [written, Json.getMember, List.map_cons] at ih ⊢
      rw [List.find?_cons_of_neg (by simpa using other), List.find?_cons_of_neg (by simpa using same)]
      exact ih

theorem dictOf_written {ν ν' : Type} {decode : Json → Option ν'} {encode : ν → Json} {restore : ν → ν'}
    {entries : List (MessageId × ν)} (reads : ∀ entry ∈ entries, decode (encode entry.2) = some (restore entry.2))
    (nodup : (entries.map Prod.fst).Nodup) (dict : Dict MessageId ν')
    (fresh : ∀ entry ∈ entries, entry.1 ∉ dict.keys) :
    ∃ after, dictOf decode (written encode entries) dict = some after ∧
      after.entries = dict.entries ++ entries.map fun entry => (entry.1, restore entry.2) := by
  induction entries generalizing dict with
  | nil => exact ⟨dict, rfl, by simp⟩
  | cons entry rest ih =>
    rw [List.map_cons, List.nodup_cons] at nodup
    have absent := fresh entry List.mem_cons_self
    have appended : (dict.set entry.1 (restore entry.2)).entries = dict.entries ++ [(entry.1, restore entry.2)] :=
      Dict.entries_set_of_absent absent
    have later : ∀ other ∈ rest, other.1 ∉ (dict.set entry.1 (restore entry.2)).keys := by
      intro other member inside
      rcases (Dict.mem_keys_set ..).mp inside with same | before
      · exact nodup.1 (same ▸ List.mem_map_of_mem member)
      · exact fresh other (List.mem_cons_of_mem _ member) before
    rcases ih (fun other member => reads other (List.mem_cons_of_mem _ member)) nodup.2 _ later with ⟨after, read, entries⟩
    refine ⟨after, ?_, ?_⟩
    · rw [written, List.map_cons, dictOf, asId_chars, reads entry List.mem_cons_self]
      exact read
    · rw [entries, appended, List.append_assoc]
      rfl

end Trees

end ClaudeProxy.Manager
