import Mathlib.Data.Finset.Basic
import Mathlib.Data.Finset.Dedup
import ClaudeProxy.Kit.Dict
import ClaudeProxy.Kit.Machine
import ClaudeProxy.Kit.PyRepr

namespace ClaudeProxy.Sessions

open Kit

structure LogRecord where
  messageId : List Char
  ts : List Char
  direction : List Char
  kind : List Char

/-- The message log of the session store, with the set of ids beside each chat's records. -/
structure MessageLog where
  messageLog : Dict (List Char) (List LogRecord)
  messageLogIds : Dict (List Char) (Finset (List Char))
  messageLogCap : Option Int

namespace MessageLog

def new (cap : Option Int) : MessageLog := ⟨.empty, .empty, cap⟩

def makeChatKey (platform chatId : List Char) : List Char := platform ++ ':' :: chatId

def records (s : MessageLog) (chatKey : List Char) : List LogRecord := (s.messageLog.get? chatKey).getD []

def seen (s : MessageLog) (chatKey : List Char) : Finset (List Char) := (s.messageLogIds.get? chatKey).getD ∅

/-- `get_message_ids_for_chat` -/
def ids (s : MessageLog) (chatKey : List Char) : List (List Char) := (s.records chatKey).map LogRecord.messageId

/-- `items[-cap:]` if there are more than that -/
def trim (cap : Option Int) (items : List LogRecord) : Option (List LogRecord) :=
  match cap with
  | none => none
  | some cap => if 0 < cap ∧ cap < items.length then some (items.drop (items.length - cap.toNat)) else none

/-- Whether `record_message_id` returns at once. -/
def passesOver (s : MessageLog) (platform chatId : List Char) (messageId : Option (List Char)) : Bool :=
  messageId.all fun mid => mid ∈ s.seen (makeChatKey platform chatId)

/-- `datetime.now(UTC).isoformat()` is `now`. -/
def recordMessageId (s : MessageLog) (platform chatId : List Char) (messageId : Option (List Char))
    (direction kind now : List Char) : MessageLog :=
  match messageId with
  | none => s
  | some mid =>
    let chatKey := makeChatKey platform chatId
    let seen := s.seen chatKey
    if mid ∈ seen then s
    else
      let items := s.records chatKey ++ [⟨mid, now, direction, kind⟩]
      match trim s.messageLogCap items with
      | none =>
        { s with
          messageLog := s.messageLog.set chatKey items
          messageLogIds := s.messageLogIds.set chatKey (insert mid seen) }
      | some kept =>
        { s with
          messageLog := s.messageLog.set chatKey kept
          messageLogIds := s.messageLogIds.set chatKey (kept.map LogRecord.messageId).toFinset }

def clearAll (s : MessageLog) : MessageLog := { s with messageLog := .empty, messageLogIds := .empty }

section Load

variable (t : PyText)

/-- The id of a saved item; what is no object or has no id is passed over. -/
def savedId? (item : PyValue) : Option (List Char) :=
  let mid := item.get "message_id"
  if mid.isNone then none else some (t.str mid)

/-- The loop over the items of a chat. -/
def cleanItems : List PyValue → List LogRecord → Finset (List Char) → List LogRecord × Finset (List Char)
  | [], cleaned, seen => (cleaned, seen)
  | item :: rest, cleaned, seen =>
    match savedId? t item with
    | none => cleanItems rest cleaned seen
    | some mid =>
      if mid ∈ seen then cleanItems rest cleaned seen
      else
        let field (name : String) := t.str ((item.get name).or (.string []))
        cleanItems rest (cleaned ++ [⟨mid, field "ts", field "direction", field "kind"⟩]) (insert mid seen)

/-- The loop over the chats of a saved file; a chat whose items are no list is passed over. -/
def loadChats : List (List Char × PyValue) → MessageLog → MessageLog
  | [], s => s
  | (chatKey, items) :: rest, s =>
    match items.items? with
    | none => loadChats rest s
    | some items =>
      let (cleaned, seen) := cleanItems t items [] ∅
      loadChats rest { s with
        messageLog := s.messageLog.set chatKey cleaned
        messageLogIds := s.messageLogIds.set chatKey seen }

/-- `raw_log` of a file, as far as there is one. -/
def rawLog (file : Option PyValue) : List (List Char × PyValue) :=
  (((file.getD .none).get "message_log").or (.dict [])).entries?.getD []

/-- A new store on a file, which may be missing or hold anything. -/
def load (cap : Option Int) (file : Option PyValue) : MessageLog := loadChats t (rawLog file) (new cap)

end Load

end MessageLog

inductive LogAction where
  | recordMessageId (platform chatId : List Char) (messageId : Option (List Char)) (direction kind now : List Char)
  | clearAll
  | reload (file : Option PyValue)

namespace LogAction

/-- The store after a call, or a new one on another file. -/
def apply (t : PyText) (s : MessageLog) : LogAction → MessageLog
  | .recordMessageId platform chatId messageId direction kind now =>
    s.recordMessageId platform chatId messageId direction kind now
  | .clearAll => s.clearAll
  | .reload file => MessageLog.load t s.messageLogCap file

/-- The id that a call is to add to a chat's log, if it is not there yet. -/
def adds (s : MessageLog) (chatKey : List Char) : LogAction → Option (List Char)
  | .recordMessageId platform chatId messageId _ _ _ =>
    if MessageLog.makeChatKey platform chatId = chatKey then messageId.filter fun mid => mid ∉ s.ids chatKey else none
  | _ => none

end LogAction

/-- The keys of a dictionary that a file holds are distinct. -/
def LogAction.DistinctKeys : LogAction → Prop
  | .reload file => ((MessageLog.rawLog file).map Prod.fst).Nodup
  | _ => True

def savedIds (t : PyText) (file : Option PyValue) (chatKey : List Char) : List (List Char) :=
  (((PyValue.lookup chatKey (MessageLog.rawLog file)).bind PyValue.items?).getD []).filterMap (MessageLog.savedId? t)

def appendNew (history : List (List Char)) (mid : List Char) : List (List Char) :=
  if mid ∈ history then history else history ++ [mid]

/-- The ids of a chat in the order in which they were newly recorded since the store was made or cleared. A file counts as
    recording its ids in turn. -/
def newlyRecorded (t : PyText) (chatKey : List Char) (s : MessageLog) (action : LogAction) (history : List (List Char)) :
    List (List Char) :=
  match action with
  | .recordMessageId .. => history ++ (action.adds s chatKey).toList
  | .clearAll => []
  | .reload file => (savedIds t file chatKey).foldl appendNew []

/-- The number of the last time at which an id was newly recorded; 0 if there is none. -/
def lastRecorded (history : List (List Char)) (mid : List Char) : Nat := history.length - history.reverse.idxOf mid

def logMachine (t : PyText) (cap : Int) (chatKey : List Char) : Machine (MessageLog × List (List Char)) LogAction :=
  Machine.watch ⟨.new (some cap), fun s action => some (action.apply t s)⟩ [] (newlyRecorded t chatKey)

end ClaudeProxy.Sessions
