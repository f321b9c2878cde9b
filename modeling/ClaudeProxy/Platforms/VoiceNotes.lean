import ClaudeProxy.Kit.Machine
import ClaudeProxy.Providers.HeuristicToolParser
import ClaudeProxy.Trees.Data

namespace ClaudeProxy.Platforms

open Kit Providers Trees

/-- A message with a voice note, as far as an adapter reads it. -/
structure VoiceUpdate where
  chatId : String
  userId : String
  /-- The author is a bot; only Discord looks at it. -/
  fromBot : Bool
  messageId : MessageId
  replyToMessageId : Option MessageId
  /-- Telegram's forum topic. -/
  messageThreadId : Option String
  /-- Discord's display name. -/
  username : Option String

/-- The two adapters that take voice notes, with whom each of them admits. -/
inductive VoicePlatform where
  | telegram (allowedUserId : Option String)
  | discord (allowedChannelIds : List String)

def VoicePlatform.name : VoicePlatform → String
  | .telegram _ => "telegram"
  | .discord _ => "discord"

/-- What becomes of a voice note before anything is sent. -/
inductive Admission where
  | ignored
  | disabled
  | taken
deriving DecidableEq

/-- `_on_telegram_voice` and `_on_discord_message` up to the status message. Telegram answers that voice notes are
    disabled before it looks at the user. -/
def VoicePlatform.admission (platform : VoicePlatform) (voiceNoteEnabled hasHandler : Bool) (update : VoiceUpdate) : Admission :=
  match platform with
  | .telegram allowedUserId =>
    if ¬ voiceNoteEnabled then .disabled
    else if truthy allowedUserId ∧ update.userId.toList ≠ strip (allowedUserId.getD "").toList then .ignored
    else if hasHandler then .taken
    else .ignored
  | .discord allowedChannelIds =>
    if update.fromBot then .ignored
    else if update.chatId ∉ allowedChannelIds then .ignored
    else if ¬ voiceNoteEnabled then .disabled
    else if hasHandler then .taken
    else .ignored

/-- The message for the handler, once the note is transcribed. -/
def VoicePlatform.incoming (platform : VoicePlatform) (update : VoiceUpdate) (transcribed : String)
    (statusMsgId : MessageId) : IncomingMessage where
  text := transcribed
  chatId := update.chatId
  userId := update.userId
  messageId := update.messageId
  platform := platform.name
  replyToMessageId := update.replyToMessageId
  messageThreadId := match platform with
    | .telegram _ => update.messageThreadId
    | .discord _ => none
  username := match platform with
    | .telegram _ => none
    | .discord _ => update.username
  statusMessageId := some statusMsgId

/-- `_pending_voice`: a note and its status message both lead to the pair of them. -/
abbrev PendingVoice := Dict (String × MessageId) (MessageId × MessageId)

namespace PendingVoice

def registerPendingVoice (pending : PendingVoice) (chatId : String) (voiceMsgId statusMsgId : MessageId) : PendingVoice :=
  (pending.set (chatId, voiceMsgId) (voiceMsgId, statusMsgId)).set (chatId, statusMsgId) (voiceMsgId, statusMsgId)

def cancelPendingVoice (pending : PendingVoice) (chatId : String) (replyId : MessageId) :
    Option (MessageId × MessageId) × PendingVoice :=
  match pending.get? (chatId, replyId) with
  | none => (none, pending)
  | some (voiceMsgId, statusMsgId) =>
    (some (voiceMsgId, statusMsgId),
      ((pending.erase (chatId, replyId)).erase (chatId, voiceMsgId)).erase (chatId, statusMsgId))

def isVoiceStillPending (pending : PendingVoice) (chatId : String) (voiceMsgId : MessageId) : Bool :=
  pending.contains (chatId, voiceMsgId)

/-- The two `pop`s before the handler is called. -/
def popPendingVoice (pending : PendingVoice) (chatId : String) (voiceMsgId statusMsgId : MessageId) : PendingVoice :=
  (pending.erase (chatId, voiceMsgId)).erase (chatId, statusMsgId)

end PendingVoice

/-- Where the task of a voice note waits. -/
inductive VoicePhase where
  | sendingStatus
  /-- The download and the transcription. -/
  | transcribing
  | deletingStatus
  | handling
  | over
deriving DecidableEq

structure VoiceNote where
  update : VoiceUpdate
  statusMsgId : Option MessageId
  phase : VoicePhase

inductive VoiceEffect where
  /-- `_message_handler(incoming)` -/
  | handed (incoming : IncomingMessage)
  /-- `cancel_pending_voice` has returned the pair. -/
  | cancelled (chatId : String) (voiceMsgId statusMsgId : MessageId)
  /-- `queue_delete_message` of the status message. -/
  | deleted (chatId : String) (statusMsgId : MessageId)
  | replied (chatId : String) (messageId : MessageId) (text : String)

structure VoiceWorld where
  pendingVoice : PendingVoice
  notes : List VoiceNote
  effects : List VoiceEffect

inductive VoiceAction where
  | receive (voiceNoteEnabled hasHandler : Bool) (update : VoiceUpdate)
  | statusSent (number : Nat) (statusMsgId : MessageId)
  | transcribed (number : Nat) (text : String)
  /-- The delete or the handler returns. -/
  | finish (number : Nat)
  /-- An exception; from the download on it is answered. -/
  | fail (number : Nat) (text : String)
  /-- The task is cancelled. -/
  | abort (number : Nat)
  /-- `/clear` in reply to a message that is in no tree. -/
  | clear (chatId : String) (replyId : MessageId)

namespace VoiceWorld

def setNote (w : VoiceWorld) (number : Nat) (note : VoiceNote) : VoiceWorld := { w with notes := w.notes.set number note }

/-- The lock is never held over an await, so registering is one step. -/
def register (w : VoiceWorld) (number : Nat) (note : VoiceNote) (statusMsgId : MessageId) : VoiceWorld where
  pendingVoice := w.pendingVoice.registerPendingVoice note.update.chatId note.update.messageId statusMsgId
  notes := w.notes.set number ⟨note.update, some statusMsgId, .transcribing⟩
  effects := w.effects

/-- The check and the `pop`s run without an await between them. -/
def decide (platform : VoicePlatform) (w : VoiceWorld) (number : Nat) (note : VoiceNote) (statusMsgId : MessageId)
    (text : String) : VoiceWorld :=
  if w.pendingVoice.isVoiceStillPending note.update.chatId note.update.messageId then
    { pendingVoice := w.pendingVoice.popPendingVoice note.update.chatId note.update.messageId statusMsgId
      notes := w.notes.set number { note with phase := .handling }
      effects := w.effects ++ [.handed (platform.incoming note.update text statusMsgId)] }
  else
    { w with
      notes := w.notes.set number { note with phase := .deletingStatus }
      effects := w.effects ++ [.deleted note.update.chatId statusMsgId] }

def clear (w : VoiceWorld) (chatId : String) (replyId : MessageId) : VoiceWorld :=
  match w.pendingVoice.cancelPendingVoice chatId replyId with
  | (none, _) => w
  | (some (voiceMsgId, statusMsgId), pendingVoice) =>
    { w with pendingVoice := pendingVoice, effects := w.effects ++ [.cancelled chatId voiceMsgId statusMsgId] }

def receive (platform : VoicePlatform) (w : VoiceWorld) (voiceNoteEnabled hasHandler : Bool) (update : VoiceUpdate) : VoiceWorld :=
  match platform.admission voiceNoteEnabled hasHandler update with
  | .ignored => w
  | .disabled => { w with effects := w.effects ++ [.replied update.chatId update.messageId "Voice notes are disabled."] }
  | .taken => { w with notes := w.notes ++ [⟨update, none, .sendingStatus⟩] }

def step (platform : VoicePlatform) (w : VoiceWorld) : VoiceAction → Option VoiceWorld
  | .receive voiceNoteEnabled hasHandler update => some (w.receive platform voiceNoteEnabled hasHandler update)
  | .statusSent number statusMsgId =>
    match w.notes[number]? with
    | some ⟨update, none, .sendingStatus⟩ => some (w.register number ⟨update, none, .sendingStatus⟩ statusMsgId)
    | _ => none
  | .transcribed number text =>
    match w.notes[number]? with
    | some ⟨update, some statusMsgId, .transcribing⟩ =>
      some (w.decide platform number ⟨update, some statusMsgId, .transcribing⟩ statusMsgId text)
    | _ => none
  | .finish number =>
    match w.notes[number]? with
    | some note =>
      if note.phase = .deletingStatus ∨ note.phase = .handling then some (w.setNote number { note with phase := .over }) else none
    | none => none
  | .fail number text =>
    match w.notes[number]? with
    | some note =>
      if note.phase = .over then none
      else if note.phase = .sendingStatus then some (w.setNote number { note with phase := .over })
      else some { w.setNote number { note with phase := .over } with
        effects := w.effects ++ [.replied note.update.chatId note.update.messageId text] }
    | none => none
  | .abort number =>
    match w.notes[number]? with
    | some note => if note.phase = .over then none else some (w.setNote number { note with phase := .over })
    | none => none
  | .clear chatId replyId => some (w.clear chatId replyId)

def machine (platform : VoicePlatform) : Machine VoiceWorld VoiceAction := ⟨⟨.empty, [], []⟩, step platform⟩

end VoiceWorld

end ClaudeProxy.Platforms
