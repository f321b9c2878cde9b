import Mathlib.Tactic.Tauto
import ClaudeProxy.Kit.Tasks
import ClaudeProxy.Platforms.VoiceNotes

namespace ClaudeProxy.Platforms

open Kit Trees

abbrev MessageKey := String × MessageId

def VoiceUpdate.key (u : VoiceUpdate) : MessageKey := (u.chatId, u.messageId)

/-- The messages of a note: itself and, once it is sent, its status message. -/
def VoiceNote.ids (note : VoiceNote) : List MessageKey :=
  note.update.key :: (note.statusMsgId.map fun statusMsgId => (note.update.chatId, statusMsgId)).toList

/-- A note with its status message. -/
abbrev Registration := VoiceUpdate × MessageId

def VoiceNote.registration (note : VoiceNote) : Option Registration :=
  note.statusMsgId.map fun statusMsgId => (note.update, statusMsgId)

def keysOf (r : Registration) : List MessageKey := [r.1.key, (r.1.chatId, r.2)]

def VoiceEffect.handedKey : VoiceEffect → Option MessageKey
  | .handed incoming => some (incoming.chatId, incoming.messageId)
  | _ => none

def VoiceEffect.cancelledKey : VoiceEffect → Option MessageKey
  | .cancelled chatId voiceMsgId _ => some (chatId, voiceMsgId)
  | _ => none

/-- A note is settled when it goes to the handler or is cancelled. -/
def VoiceEffect.settledKey (effect : VoiceEffect) : Option MessageKey := effect.handedKey.or effect.cancelledKey

namespace VoiceWorld

def ids (w : VoiceWorld) : List MessageKey := w.notes.flatMap VoiceNote.ids

def registered (w : VoiceWorld) : List Registration := w.notes.filterMap VoiceNote.registration

def handed (w : VoiceWorld) : List MessageKey := w.effects.filterMap VoiceEffect.handedKey

def cancelled (w : VoiceWorld) : List MessageKey := w.effects.filterMap VoiceEffect.cancelledKey

def settled (w : VoiceWorld) : List MessageKey := w.effects.filterMap VoiceEffect.settledKey

/-- A platform gives every message of a chat an id of its own. -/
def freshIds (w : VoiceWorld) : VoiceAction → Bool
  | .receive _ _ update => update.key ∉ w.ids
  | .statusSent number statusMsgId => w.notes[number]?.all fun note => (note.update.chatId, statusMsgId) ∉ w.ids
  | _ => true

end VoiceWorld

/-- The table leads from both messages of a note to their pair, as long as the note is not settled. -/
def Leads (pending : PendingVoice) (registered : List Registration) (settled : List MessageKey) : Prop :=
  ∀ key entry, pending.get? key = some entry ↔
    ∃ r ∈ registered, r.1.key ∉ settled ∧ entry = (r.1.messageId, r.2) ∧ key ∈ keysOf r

/-- Two notes have no message in common. -/
def Apart (registered : List Registration) : Prop :=
  ∀ r ∈ registered, ∀ other ∈ registered, ∀ key ∈ keysOf r, key ∈ keysOf other → other = r

section Table

variable {pending after : PendingVoice} {registered : List Registration} {settled : List MessageKey} {r : Registration}

theorem key_mem_keysOf (r : Registration) : r.1.key ∈ keysOf r := List.mem_cons_self

/-- A note is pending if and only if it is not settled. -/
theorem Leads.contains_iff (leads : Leads pending registered settled) (apart : Apart registered) (mem : r ∈ registered) :
    pending.contains r.1.key = true ↔ r.1.key ∉ settled := by
  rw [Dict.contains, Option.isSome_iff_exists]
  constructor
  · rintro ⟨entry, found⟩
    obtain ⟨other, among, fresh, -, here⟩ := (leads _ _).mp found
    rwa [apart r mem other among _ (key_mem_keysOf r) here] at fresh
  · intro fresh
    exact ⟨_, (leads _ _).mpr ⟨r, mem, fresh, rfl, key_mem_keysOf r⟩⟩

theorem get?_popPendingVoice (pending : PendingVoice) (r : Registration) (key : MessageKey) :
    (pending.popPendingVoice r.1.chatId r.1.messageId r.2).get? key = if key ∈ keysOf r then none else pending.get? key := by
  rw [PendingVoice.popPendingVoice, Dict.get?_erase, Dict.get?_erase]
  by_cases status : key = (r.1.chatId, r.2)
  · rw [if_pos status, if_pos (by simp [keysOf, status])]
  · by_cases voice : key = r.1.key
    · have member : key ∈ keysOf r := by simp [keysOf, voice]
      rw [if_neg status, if_pos member]
      exact if_pos voice
    · have other : key ∉ keysOf r := by simp [keysOf, status, voice]
      rw [if_neg status, if_neg other]
      exact if_neg voice

/-- The two messages of a note leave the table when the note is settled. -/
theorem Leads.settle (leads : Leads pending registered settled) (apart : Apart registered) (mem : r ∈ registered)
    (erased : ∀ key, after.get? key = if key ∈ keysOf r then none else pending.get? key) :
    Leads after registered (settled ++ [r.1.key]) := by
  intro key entry
  rw [erased]
  have settledBoth (other : Registration) : other.1.key ∉ settled ++ [r.1.key] ↔ other.1.key ∉ settled ∧ other.1.key ≠ r.1.key := by
    simp
  split
  · rename_i gone
    constructor
    · intro found
      cases found
    · rintro ⟨other, among, fresh, -, here⟩
      rw [apart r mem other among key gone here, settledBoth] at fresh
      exact absurd rfl fresh.2
  · rename_i stays
    rw [leads]
    constructor
    · rintro ⟨other, among, fresh, shape, here⟩
      refine ⟨other, among, (settledBoth other).mpr ⟨fresh, fun same => stays ?_⟩, shape, here⟩
      have equal := apart r mem other among r.1.key (key_mem_keysOf r) (same ▸ key_mem_keysOf other)
      rwa [← equal]
    · rintro ⟨other, among, fresh, shape, here⟩
      exact ⟨other, among, ((settledBoth other).mp fresh).1, shape, here⟩

/-- A note whose messages are in no other note is registered. -/
theorem Leads.register (leads : Leads pending registered settled) (fresh : r.1.key ∉ settled)
    {grown : List Registration} (mem : ∀ other, other ∈ grown ↔ other = r ∨ other ∈ registered) (apart : Apart grown) :
    Leads (pending.registerPendingVoice r.1.chatId r.1.messageId r.2) grown settled := by
  intro key entry
  have self : r ∈ grown := (mem r).mpr (.inl rfl)
  have value : (pending.registerPendingVoice r.1.chatId r.1.messageId r.2).get? key =
      if key ∈ keysOf r then some (r.1.messageId, r.2) else pending.get? key := by
    rw [PendingVoice.registerPendingVoice, Dict.get?_set, Dict.get?_set]
    by_cases status : key = (r.1.chatId, r.2)
    · rw [if_pos status, if_pos (by simp [keysOf, status])]
    · by_cases voice : key = r.1.key
      · have member : key ∈ keysOf r := by simp [keysOf, voice]
        rw [if_neg status, if_pos member]
        exact if_pos voice
      · have other : key ∉ keysOf r := by simp [keysOf, status, voice]
        rw [if_neg status, if_neg other]
        exact if_neg voice
  rw [value]
  split
  · rename_i own
    constructor
    · intro same
      exact ⟨r, self, fresh, (Option.some.inj same).symm, own⟩
    · rintro ⟨other, among, -, rfl, here⟩
      rw [apart r self other among key own here]
  · rename_i foreign
    rw [leads]
    constructor
    · rintro ⟨other, among, rest⟩
      exact ⟨other, (mem other).mpr (.inr among), rest⟩
    · rintro ⟨other, among, free, shape, here⟩
      rcases (mem other).mp among with rfl | old
      · exact absurd here foreign
      · exact ⟨other, old, free, shape, here⟩

end Table

section Notes

variable {notes : List VoiceNote} {note other : VoiceNote} {r : Registration} {number : Nat}

/-- No two notes share a message. -/
theorem note_eq (distinct : (notes.flatMap VoiceNote.ids).Nodup) (mem : note ∈ notes) (among : other ∈ notes) {key : MessageKey}
    (here : key ∈ note.ids) (there : key ∈ other.ids) : other = note := by
  by_contra different
  have symmetric : Std.Symm (Function.onFun List.Disjoint VoiceNote.ids) := ⟨fun _ _ apart => List.Disjoint.symm apart⟩
  have disjoint := (List.nodup_flatMap.mp distinct).2.forall among mem different
  exact disjoint there here

theorem key_mem_ids (note : VoiceNote) : note.update.key ∈ note.ids := List.mem_cons_self

theorem keysOf_eq (registered : note.registration = some r) : keysOf r = note.ids := by
  rw [VoiceNote.registration, Option.map_eq_some_iff] at registered
  obtain ⟨statusMsgId, sent, rfl⟩ := registered
  rw [VoiceNote.ids, sent]
  rfl

theorem update_eq (registered : note.registration = some r) : r.1 = note.update := by
  rw [VoiceNote.registration, Option.map_eq_some_iff] at registered
  obtain ⟨statusMsgId, -, rfl⟩ := registered
  rfl

theorem apart_of_nodup (distinct : (notes.flatMap VoiceNote.ids).Nodup) : Apart (notes.filterMap VoiceNote.registration) := by
  intro r mem other among key here there
  obtain ⟨note, inNotes, isNote⟩ := List.mem_filterMap.mp mem
  obtain ⟨second, inNotes', isSecond⟩ := List.mem_filterMap.mp among
  rw [keysOf_eq isNote] at here
  rw [keysOf_eq isSecond] at there
  have same := note_eq distinct inNotes inNotes' here there
  rw [same, isNote] at isSecond
  exact (Option.some.inj isSecond).symm

/-- A registered note with the key of some note is that note. -/
theorem registration_eq (distinct : (notes.flatMap VoiceNote.ids).Nodup) (mem : note ∈ notes)
    (among : r ∈ notes.filterMap VoiceNote.registration) (key : r.1.key = note.update.key) : note.registration = some r := by
  obtain ⟨second, inNotes, isSecond⟩ := List.mem_filterMap.mp among
  have here : note.update.key ∈ second.ids := by
    rw [← key, update_eq isSecond]
    exact key_mem_ids second
  rw [← note_eq distinct mem inNotes (key_mem_ids note) here]
  exact isSecond

end Notes

section Effects

variable {w : VoiceWorld}

theorem mem_settled_iff (w : VoiceWorld) (key : MessageKey) : key ∈ w.settled ↔ key ∈ w.handed ∨ key ∈ w.cancelled := by
  simp only [VoiceWorld.settled, VoiceWorld.handed, VoiceWorld.cancelled, List.mem_filterMap, ← exists_or, ← and_or_left]
  refine exists_congr fun effect => and_congr_right fun _ => ?_
  cases effect <;> simp [VoiceEffect.settledKey, VoiceEffect.handedKey, VoiceEffect.cancelledKey]

/-- The order of what is handed and what is cancelled does not matter. -/
theorem settled_perm (w : VoiceWorld) : w.settled.Perm (w.handed ++ w.cancelled) := by
  unfold VoiceWorld.settled VoiceWorld.handed VoiceWorld.cancelled
  induction w.effects with
  | nil => exact .nil
  | cons effect rest ih =>
    cases effect with
    | handed incoming => exact ih.cons _
    | cancelled chatId voiceMsgId statusMsgId => exact (ih.cons _).trans List.perm_middle.symm
    | deleted chatId statusMsgId => exact ih
    | replied chatId messageId text => exact ih

end Effects

/-- What holds between the table, the tasks and the effects. -/
structure VoiceWorld.Sound (platform : VoicePlatform) (w : VoiceWorld) : Prop where
  distinct : w.ids.Nodup
  leads : Leads w.pendingVoice w.registered w.settled
  once : w.settled.Nodup
  known : ∀ key ∈ w.settled, ∃ r ∈ w.registered, r.1.key = key
  genuine : ∀ incoming, .handed incoming ∈ w.effects → ∃ r ∈ w.registered, ∃ text, incoming = platform.incoming r.1 text r.2
  deleted : ∀ chatId statusMsgId, .deleted chatId statusMsgId ∈ w.effects →
    ∃ r ∈ w.registered, r.1.key ∈ w.cancelled ∧ chatId = r.1.chatId ∧ statusMsgId = r.2
  sending : ∀ note ∈ w.notes, note.phase = .sendingStatus → note.statusMsgId = none
  transcribing : ∀ note ∈ w.notes, note.phase = .transcribing → note.update.key ∉ w.handed
  handling : ∀ note ∈ w.notes, note.phase = .handling → note.update.key ∈ w.handed
  deleting : ∀ note ∈ w.notes, note.phase = .deletingStatus → ∀ statusMsgId ∈ note.statusMsgId,
    .deleted note.update.chatId statusMsgId ∈ w.effects

namespace VoiceWorld.Sound

variable {platform : VoicePlatform} {w next : VoiceWorld} {note : VoiceNote} {number : Nat}

/-- An answer settles nothing and deletes nothing. -/
theorem answered (sound : w.Sound platform) {chatId : String} {messageId : MessageId} {text : String}
    (after : next = ⟨w.pendingVoice, w.notes, w.effects ++ [.replied chatId messageId text]⟩) : next.Sound platform := by
  have registered : next.registered = w.registered := by
    rw [after]
    rfl
  have notes : next.notes = w.notes := by rw [after]
  have reads {β : Type} (f : VoiceEffect → Option β) (silent : f (.replied chatId messageId text) = none) :
      next.effects.filterMap f = w.effects.filterMap f := by
    rw [after, List.filterMap_append, List.filterMap_cons, silent]
    exact List.append_nil _
  have settled : next.settled = w.settled := reads _ rfl
  have handed : next.handed = w.handed := reads _ rfl
  have cancelled : next.cancelled = w.cancelled := reads _ rfl
  have old (effect : VoiceEffect) (mem : effect ∈ next.effects) (loud : effect ≠ .replied chatId messageId text) :
      effect ∈ w.effects := by
    rw [after] at mem
    exact (List.mem_append.mp mem).resolve_right fun new => loud (List.mem_singleton.mp new)
  constructor
  case distinct =>
    rw [VoiceWorld.ids, notes]
    exact sound.distinct
  case leads =>
    rw [registered, settled, after]
    exact sound.leads
  case once => exact settled ▸ sound.once
  case known =>
    rw [settled, registered]
    exact sound.known
  case genuine =>
    intro incoming mem
    rw [registered]
    exact sound.genuine incoming (old _ mem fun same => by cases same)
  case deleted =>
    intro chatId statusMsgId mem
    rw [registered, cancelled]
    exact sound.deleted chatId statusMsgId (old _ mem fun same => by cases same)
  case sending =>
    rw [notes]
    exact sound.sending
  case transcribing =>
    rw [notes, handed]
    exact sound.transcribing
  case handling =>
    rw [notes, handed]
    exact sound.handling
  case deleting =>
    rw [notes, after]
    intro other mem phase statusMsgId sent
    exact List.mem_append_left _ (sound.deleting other mem phase statusMsgId sent)

/-- A note that is over says nothing any more. -/
theorem finished (sound : w.Sound platform) (found : w.notes[number]? = some note) :
    (w.setNote number { note with phase := .over }).Sound platform := by
  have ids : (w.setNote number { note with phase := .over }).ids = w.ids := flatMap_set found rfl
  have registered : (w.setNote number { note with phase := .over }).registered = w.registered := filterMap_set found rfl
  have others (other : VoiceNote) (mem : other ∈ (w.setNote number { note with phase := .over }).notes) (active : other.phase ≠ .over) :
      other ∈ w.notes := by
    rcases mem_set found mem with rfl | before
    · exact absurd rfl active
    · exact before
  constructor
  case distinct => exact ids ▸ sound.distinct
  case leads =>
    rw [registered]
    exact sound.leads
  case once => exact sound.once
  case known =>
    rw [registered]
    exact sound.known
  case genuine =>
    rw [registered]
    exact sound.genuine
  case deleted =>
    rw [registered]
    exact sound.deleted
  case sending =>
    intro other mem phase
    exact sound.sending other (others other mem (by rw [phase]; decide)) phase
  case transcribing =>
    intro other mem phase
    exact sound.transcribing other (others other mem (by rw [phase]; decide)) phase
  case handling =>
    intro other mem phase
    exact sound.handling other (others other mem (by rw [phase]; decide)) phase
  case deleting =>
    intro other mem phase
    exact sound.deleting other (others other mem (by rw [phase]; decide)) phase

/-- A new note has a message of its own. -/
theorem received (sound : w.Sound platform) {update : VoiceUpdate} (fresh : update.key ∉ w.ids)
    (after : next = ⟨w.pendingVoice, w.notes ++ [⟨update, none, .sendingStatus⟩], w.effects⟩) : next.Sound platform := by
  have ids : next.ids = w.ids ++ [update.key] := by
    rw [after]
    exact List.flatMap_append
  have registered : next.registered = w.registered := by
    rw [after, VoiceWorld.registered, List.filterMap_append]
    exact List.append_nil _
  have same : next.effects = w.effects := by rw [after]
  have others (other : VoiceNote) (mem : other ∈ next.notes) : other ∈ w.notes ∨ other = ⟨update, none, .sendingStatus⟩ := by
    rw [after] at mem
    exact (List.mem_append.mp mem).imp_right List.mem_singleton.mp
  constructor
  case distinct =>
    rw [ids, List.nodup_append_comm]
    exact List.nodup_cons.mpr ⟨fresh, sound.distinct⟩
  case leads =>
    rw [registered, VoiceWorld.settled, same, after]
    exact sound.leads
  case once =>
    rw [VoiceWorld.settled, same]
    exact sound.once
  case known =>
    rw [VoiceWorld.settled, same, registered]
    exact sound.known
  case genuine =>
    rw [same, registered]
    exact sound.genuine
  case deleted =>
    rw [same, registered, VoiceWorld.cancelled, same]
    exact sound.deleted
  case sending =>
    intro other mem phase
    rcases others other mem with before | rfl
    · exact sound.sending other before phase
    · rfl
  case transcribing =>
    intro other mem phase
    rw [VoiceWorld.handed, same]
    rcases others other mem with before | rfl
    · exact sound.transcribing other before phase
    · cases phase
  case handling =>
    intro other mem phase
    rw [VoiceWorld.handed, same]
    rcases others other mem with before | rfl
    · exact sound.handling other before phase
    · cases phase
  case deleting =>
    intro other mem phase
    rw [same]
    rcases others other mem with before | rfl
    · exact sound.deleting other before phase
    · cases phase

/-- A note that was not registered yet is not settled. -/
theorem unsettled (sound : w.Sound platform) (mem : note ∈ w.notes) (unsent : note.statusMsgId = none) : note.update.key ∉ w.settled := by
  intro settled
  obtain ⟨r, among, key⟩ := sound.known _ settled
  have registered := registration_eq sound.distinct mem among key
  rw [VoiceNote.registration, unsent] at registered
  cases registered

theorem registering (sound : w.Sound platform) (found : w.notes[number]? = some note) (unsent : note.statusMsgId = none)
    {statusMsgId : MessageId} (fresh : (note.update.chatId, statusMsgId) ∉ w.ids)
    (after : next = w.register number note statusMsgId) : next.Sound platform := by
  have mem := List.mem_of_getElem? found
  have free := sound.unsettled mem unsent
  have ids : next.ids.Perm ([(note.update.chatId, statusMsgId)] ++ w.ids) := by
    rw [after]
    refine flatMap_set_perm found ?_
    rw [VoiceNote.ids, VoiceNote.ids, unsent]
    rfl
  have distinct : next.ids.Nodup := ids.nodup_iff.mpr (List.nodup_cons.mpr ⟨fresh, sound.distinct⟩)
  have registered (r : Registration) : r ∈ next.registered ↔ r = (note.update, statusMsgId) ∨ r ∈ w.registered := by
    have silent : note.registration = none := by rw [VoiceNote.registration, unsent, Option.map_none]
    rw [after]
    exact mem_filterMap_set found silent rfl r
  have grown (r : Registration) (old : r ∈ w.registered) : r ∈ next.registered := (registered r).mpr (.inr old)
  have same : next.effects = w.effects := by
    rw [after]
    rfl
  have others (other : VoiceNote) (among : other ∈ next.notes) :
      other = ⟨note.update, some statusMsgId, .transcribing⟩ ∨ other ∈ w.notes := by
    rw [after] at among
    exact mem_set found among
  constructor
  case distinct => exact distinct
  case leads =>
    rw [VoiceWorld.settled, same]
    have leads := sound.leads.register (r := (note.update, statusMsgId)) free registered (apart_of_nodup distinct)
    rw [after]
    rwa [after] at leads
  case once =>
    rw [VoiceWorld.settled, same]
    exact sound.once
  case known =>
    rw [VoiceWorld.settled, same]
    intro key settled
    obtain ⟨r, among, keyed⟩ := sound.known key settled
    exact ⟨r, grown r among, keyed⟩
  case genuine =>
    rw [same]
    intro incoming handed
    obtain ⟨r, among, text, equal⟩ := sound.genuine incoming handed
    exact ⟨r, grown r among, text, equal⟩
  case deleted =>
    rw [same, VoiceWorld.cancelled, same]
    intro chatId status gone
    obtain ⟨r, among, rest⟩ := sound.deleted chatId status gone
    exact ⟨r, grown r among, rest⟩
  case sending =>
    intro other among phase
    rcases others other among with rfl | before
    · cases phase
    · exact sound.sending other before phase
  case transcribing =>
    intro other among phase
    rw [VoiceWorld.handed, same]
    rcases others other among with rfl | before
    · exact fun handed => free ((mem_settled_iff w _).mpr (.inl handed))
    · exact sound.transcribing other before phase
  case handling =>
    intro other among phase
    rw [VoiceWorld.handed, same]
    rcases others other among with rfl | before
    · cases phase
    · exact sound.handling other before phase
  case deleting =>
    intro other among phase
    rw [same]
    rcases others other among with rfl | before
    · cases phase
    · exact sound.deleting other before phase

/-- What is left to show when one registered note is settled. -/
theorem settle_once (sound : w.Sound platform) {r : Registration} (mem : r ∈ w.registered) (free : r.1.key ∉ w.settled)
    (settled : next.settled = w.settled ++ [r.1.key]) (registered : next.registered = w.registered) :
    next.settled.Nodup ∧ ∀ key ∈ next.settled, ∃ r ∈ next.registered, r.1.key = key := by
  rw [settled, registered]
  constructor
  · rw [List.nodup_append_comm]
    exact List.nodup_cons.mpr ⟨free, sound.once⟩
  · intro key among
    rcases List.mem_append.mp among with before | new
    · exact sound.known key before
    · exact ⟨r, mem, (List.mem_singleton.mp new).symm⟩

theorem cleared (sound : w.Sound platform) {chatId : String} {replyId : MessageId} (after : next = w.clear chatId replyId) :
    next.Sound platform := by
  cases entry : w.pendingVoice.get? (chatId, replyId) with
  | none =>
    rw [VoiceWorld.clear, PendingVoice.cancelPendingVoice, entry] at after
    exact after ▸ sound
  | some pair =>
    obtain ⟨r, mem, free, rfl, here⟩ := (sound.leads _ _).mp entry
    have chat : chatId = r.1.chatId := by
      rcases List.mem_cons.mp here with voice | status
      · exact congrArg Prod.fst voice
      · exact congrArg Prod.fst (List.mem_singleton.mp status)
    rw [VoiceWorld.clear, PendingVoice.cancelPendingVoice, entry] at after
    have effects : next.effects = w.effects ++ [.cancelled chatId r.1.messageId r.2] := by rw [after]
    have notes : next.notes = w.notes := by rw [after]
    have registered : next.registered = w.registered := by rw [VoiceWorld.registered, notes, VoiceWorld.registered]
    have settled : next.settled = w.settled ++ [r.1.key] := by
      rw [VoiceWorld.settled, effects, List.filterMap_append, chat]
      rfl
    have handed : next.handed = w.handed := by
      rw [VoiceWorld.handed, effects, List.filterMap_append]
      exact List.append_nil _
    have cancelled : next.cancelled = w.cancelled ++ [r.1.key] := by
      rw [VoiceWorld.cancelled, effects, List.filterMap_append, chat]
      rfl
    have erased (key : MessageKey) : next.pendingVoice.get? key = if key ∈ keysOf r then none else w.pendingVoice.get? key := by
      have popped := get?_popPendingVoice (w.pendingVoice.erase (chatId, replyId)) r key
      rw [Dict.get?_erase] at popped
      rw [after, chat]
      rw [chat] at popped here
      refine popped.trans ?_
      split
      · rfl
      · rename_i foreign
        refine if_neg fun same => foreign ?_
        rw [same]
        exact here
    obtain ⟨once, known⟩ := sound.settle_once mem free settled registered
    have old (effect : VoiceEffect) (among : effect ∈ next.effects)
        (other : ∀ chatId voiceMsgId statusMsgId, effect ≠ .cancelled chatId voiceMsgId statusMsgId) : effect ∈ w.effects := by
      rw [effects] at among
      rcases List.mem_append.mp among with before | new
      · exact before
      · exact absurd (List.mem_singleton.mp new) (other _ _ _)
    constructor
    case distinct =>
      rw [VoiceWorld.ids, notes]
      exact sound.distinct
    case leads =>
      rw [registered, settled]
      exact sound.leads.settle (apart_of_nodup sound.distinct) mem erased
    case once => exact once
    case known => exact known
    case genuine =>
      intro incoming among
      rw [registered]
      exact sound.genuine incoming (old _ among fun _ _ _ same => by cases same)
    case deleted =>
      intro chatId statusMsgId among
      obtain ⟨other, inList, gone, rest⟩ := sound.deleted chatId statusMsgId (old _ among fun _ _ _ same => by cases same)
      rw [registered, cancelled]
      exact ⟨other, inList, List.mem_append_left _ gone, rest⟩
    case sending =>
      rw [notes]
      exact sound.sending
    case transcribing =>
      rw [notes, handed]
      exact sound.transcribing
    case handling =>
      rw [notes, handed]
      exact sound.handling
    case deleting =>
      rw [notes, effects]
      intro other among phase statusMsgId sent
      exact List.mem_append_left _ (sound.deleting other among phase statusMsgId sent)

/-- A note that is no longer pending when its transcription is there was cancelled. -/
theorem discarded (sound : w.Sound platform) (found : w.notes[number]? = some note) (phase : note.phase = .transcribing)
    {statusMsgId : MessageId} (sent : note.statusMsgId = some statusMsgId) (gone : note.update.key ∈ w.settled)
    (after : next = ⟨w.pendingVoice, w.notes.set number { note with phase := .deletingStatus },
      w.effects ++ [.deleted note.update.chatId statusMsgId]⟩) : next.Sound platform := by
  have among := List.mem_of_getElem? found
  have registration : note.registration = some (note.update, statusMsgId) := by
    rw [VoiceNote.registration, sent, Option.map_some]
  have mem : (note.update, statusMsgId) ∈ w.registered := List.mem_filterMap.mpr ⟨note, among, registration⟩
  have cancel : note.update.key ∈ w.cancelled :=
    ((mem_settled_iff w _).mp gone).resolve_left (sound.transcribing note among phase)
  have ids : next.ids = w.ids := by
    rw [after]
    exact flatMap_set found rfl
  have registered : next.registered = w.registered := by
    rw [after]
    exact filterMap_set found rfl
  have reads {β : Type} (f : VoiceEffect → Option β) (silent : f (.deleted note.update.chatId statusMsgId) = none) :
      next.effects.filterMap f = w.effects.filterMap f := by
    rw [after, List.filterMap_append, List.filterMap_cons, silent]
    exact List.append_nil _
  have settled : next.settled = w.settled := reads _ rfl
  have handed : next.handed = w.handed := reads _ rfl
  have cancelled : next.cancelled = w.cancelled := reads _ rfl
  have effects : next.effects = w.effects ++ [.deleted note.update.chatId statusMsgId] := by rw [after]
  have others (other : VoiceNote) (mem : other ∈ next.notes) : other = { note with phase := .deletingStatus } ∨ other ∈ w.notes := by
    rw [after] at mem
    exact mem_set found mem
  constructor
  case distinct => exact ids ▸ sound.distinct
  case leads =>
    rw [registered, settled, after]
    exact sound.leads
  case once => exact settled ▸ sound.once
  case known =>
    rw [settled, registered]
    exact sound.known
  case genuine =>
    intro incoming inEffects
    rw [registered]
    rw [effects] at inEffects
    rcases List.mem_append.mp inEffects with before | new
    · exact sound.genuine incoming before
    · cases List.mem_singleton.mp new
  case deleted =>
    intro chatId status inEffects
    rw [registered, cancelled]
    rw [effects] at inEffects
    rcases List.mem_append.mp inEffects with before | new
    · exact sound.deleted chatId status before
    · cases List.mem_singleton.mp new
      exact ⟨_, mem, cancel, rfl, rfl⟩
  case sending =>
    intro other inNotes phase
    rcases others other inNotes with rfl | before
    · cases phase
    · exact sound.sending other before phase
  case transcribing =>
    intro other inNotes phase
    rw [handed]
    rcases others other inNotes with rfl | before
    · cases phase
    · exact sound.transcribing other before phase
  case handling =>
    intro other inNotes phase
    rw [handed]
    rcases others other inNotes with rfl | before
    · cases phase
    · exact sound.handling other before phase
  case deleting =>
    intro other inNotes phase status own
    rw [effects]
    rcases others other inNotes with rfl | before
    · have same : statusMsgId = status := Option.some.inj (sent.symm.trans own)
      exact List.mem_append_right _ (List.mem_singleton.mpr (by rw [same]))
    · exact List.mem_append_left _ (sound.deleting other before phase status own)

/-- A pending note goes to the handler and leaves the table. -/
theorem handing (sound : w.Sound platform) (found : w.notes[number]? = some note)
    {statusMsgId : MessageId} (sent : note.statusMsgId = some statusMsgId) (free : note.update.key ∉ w.settled) {text : String}
    (after : next = ⟨w.pendingVoice.popPendingVoice note.update.chatId note.update.messageId statusMsgId,
      w.notes.set number { note with phase := .handling },
      w.effects ++ [.handed (platform.incoming note.update text statusMsgId)]⟩) : next.Sound platform := by
  have among := List.mem_of_getElem? found
  have registration : note.registration = some (note.update, statusMsgId) := by
    rw [VoiceNote.registration, sent, Option.map_some]
  have mem : (note.update, statusMsgId) ∈ w.registered := List.mem_filterMap.mpr ⟨note, among, registration⟩
  have ids : next.ids = w.ids := by
    rw [after]
    exact flatMap_set found rfl
  have distinct : next.ids.Nodup := ids ▸ sound.distinct
  have registered : next.registered = w.registered := by
    rw [after]
    exact filterMap_set found rfl
  have effects : next.effects = w.effects ++ [.handed (platform.incoming note.update text statusMsgId)] := by rw [after]
  have settled : next.settled = w.settled ++ [note.update.key] := by
    rw [VoiceWorld.settled, effects, List.filterMap_append]
    rfl
  have handed : next.handed = w.handed ++ [note.update.key] := by
    rw [VoiceWorld.handed, effects, List.filterMap_append]
    rfl
  have cancelled : next.cancelled = w.cancelled := by
    rw [VoiceWorld.cancelled, effects, List.filterMap_append]
    exact List.append_nil _
  have others (other : VoiceNote) (mem : other ∈ next.notes) : other = { note with phase := .handling } ∨ other ∈ w.notes := by
    rw [after] at mem
    exact mem_set found mem
  have self : { note with phase := .handling } ∈ next.notes := by
    rw [after]
    exact List.mem_set (List.getElem?_eq_some_iff.mp found).1 _
  obtain ⟨once, known⟩ := sound.settle_once mem free settled registered
  constructor
  case distinct => exact distinct
  case leads =>
    rw [registered, settled, after]
    exact sound.leads.settle (apart_of_nodup sound.distinct) mem (get?_popPendingVoice w.pendingVoice (note.update, statusMsgId))
  case once => exact once
  case known => exact known
  case genuine =>
    intro incoming inEffects
    rw [registered]
    rw [effects] at inEffects
    rcases List.mem_append.mp inEffects with before | new
    · exact sound.genuine incoming before
    · cases List.mem_singleton.mp new
      exact ⟨_, mem, text, rfl⟩
  case deleted =>
    intro chatId status inEffects
    rw [registered, cancelled]
    rw [effects] at inEffects
    rcases List.mem_append.mp inEffects with before | new
    · exact sound.deleted chatId status before
    · cases List.mem_singleton.mp new
  case sending =>
    intro other inNotes phase
    rcases others other inNotes with rfl | before
    · cases phase
    · exact sound.sending other before phase
  case transcribing =>
    intro other inNotes phase
    rw [handed]
    intro inHanded
    rcases List.mem_append.mp inHanded with before | new
    · rcases others other inNotes with rfl | old
      · cases phase
      · exact sound.transcribing other old phase before
    · -- the note with this key is the one that is now being handled
      have here : other.update.key ∈ VoiceNote.ids { note with phase := .handling } := by
        rw [List.mem_singleton.mp new]
        exact key_mem_ids note
      rw [← note_eq distinct inNotes self (key_mem_ids other) here] at phase
      cases phase
  case handling =>
    intro other inNotes phase
    rw [handed]
    rcases others other inNotes with rfl | before
    · exact List.mem_append_right _ (List.mem_singleton.mpr rfl)
    · exact List.mem_append_left _ (sound.handling other before phase)
  case deleting =>
    intro other inNotes phase status own
    rw [effects]
    rcases others other inNotes with rfl | before
    · cases phase
    · exact List.mem_append_left _ (sound.deleting other before phase status own)

/-- A note is handed over if and only if it has not been settled, that is, not cancelled. -/
theorem deciding (sound : w.Sound platform) (found : w.notes[number]? = some note) (phase : note.phase = .transcribing)
    {statusMsgId : MessageId} (sent : note.statusMsgId = some statusMsgId) {text : String}
    (after : next = w.decide platform number note statusMsgId text) : next.Sound platform := by
  have mem : (note.update, statusMsgId) ∈ w.registered :=
    List.mem_filterMap.mpr ⟨note, List.mem_of_getElem? found, by rw [VoiceNote.registration, sent, Option.map_some]⟩
  have pending : w.pendingVoice.isVoiceStillPending note.update.chatId note.update.messageId = true ↔ note.update.key ∉ w.settled :=
    sound.leads.contains_iff (apart_of_nodup sound.distinct) mem
  by_cases gone : note.update.key ∈ w.settled
  · have absent : ¬ w.pendingVoice.isVoiceStillPending note.update.chatId note.update.messageId = true :=
      fun present => pending.mp present gone
    rw [VoiceWorld.decide, if_neg absent] at after
    exact sound.discarded found phase sent gone after
  · rw [VoiceWorld.decide, if_pos (pending.mpr gone)] at after
    exact sound.handing found sent gone after

theorem step {a : VoiceAction} (sound : w.Sound platform) (fresh : w.freshIds a = true) (taken : w.step platform a = some next) :
    next.Sound platform := by
  cases a with
  | receive voiceNoteEnabled hasHandler update =>
    simp only [VoiceWorld.step, Option.some.injEq] at taken
    unfold VoiceWorld.receive at taken
    split at taken
    · exact taken ▸ sound
    · exact sound.answered taken.symm
    · exact sound.received (of_decide_eq_true fresh) taken.symm
  | statusSent number statusMsgId =>
    simp only [VoiceWorld.step] at taken
    split at taken
    · rename_i update found
      rw [VoiceWorld.freshIds, found] at fresh
      exact sound.registering found rfl (of_decide_eq_true fresh) (Option.some.inj taken).symm
    · cases taken
  | transcribed number text =>
    simp only [VoiceWorld.step] at taken
    split at taken
    · rename_i update statusMsgId found
      exact sound.deciding found rfl rfl (Option.some.inj taken).symm
    · cases taken
  | finish number =>
    simp only [VoiceWorld.step] at taken
    split at taken
    · rename_i note found
      split at taken
      · exact (Option.some.inj taken) ▸ sound.finished found
      · cases taken
    · cases taken
  | fail number text =>
    simp only [VoiceWorld.step] at taken
    split at taken
    · rename_i note found
      split at taken
      · cases taken
      · split at taken
        · exact (Option.some.inj taken) ▸ sound.finished found
        · exact (sound.finished found).answered (Option.some.inj taken).symm
    · cases taken
  | abort number =>
    simp only [VoiceWorld.step] at taken
    split at taken
    · rename_i note found
      split at taken
      · cases taken
      · exact (Option.some.inj taken) ▸ sound.finished found
    · cases taken
  | clear chatId replyId => exact sound.cleared (Option.some.inj taken).symm

end VoiceWorld.Sound

namespace VoiceWorld

theorem sound (platform : VoicePlatform) {w : VoiceWorld}
    (reached : (machine platform).ReachableUnder (fun w a => w.freshIds a = true) w) : w.Sound platform := by
  refine reached.invariant ?_ fun s a next sound fresh taken => sound.step fresh taken
  constructor
  case leads =>
    intro key entry
    simp [machine, registered, Dict.get?_empty]
  all_goals simp [machine, ids, settled]

/-- A transcription goes to the handler exactly when the note has not been cancelled. -/
theorem Sound.handed_iff {platform : VoicePlatform} {w next : VoiceWorld} (sound : w.Sound platform) {number : Nat} {text : String}
    (taken : w.step platform (.transcribed number text) = some next) {note : VoiceNote} (found : w.notes[number]? = some note) :
    note.update.key ∈ next.handed ↔ note.update.key ∉ w.cancelled := by
  have mem := List.mem_of_getElem? found
  simp only [VoiceWorld.step, found] at taken
  split at taken
  · rename_i update statusMsgId same
    cases same
    rw [Option.some.injEq] at taken
    have registered : (update, statusMsgId) ∈ w.registered := List.mem_filterMap.mpr ⟨_, mem, rfl⟩
    have pending : w.pendingVoice.isVoiceStillPending update.chatId update.messageId = true ↔ update.key ∉ w.settled :=
      sound.leads.contains_iff (apart_of_nodup sound.distinct) registered
    have unhanded : update.key ∉ w.handed := sound.transcribing _ mem rfl
    by_cases gone : update.key ∈ w.settled
    · have cancelled : update.key ∈ w.cancelled := ((mem_settled_iff w _).mp gone).resolve_left unhanded
      have absent : ¬ w.pendingVoice.isVoiceStillPending update.chatId update.messageId = true := fun present => pending.mp present gone
      rw [VoiceWorld.decide, if_neg absent] at taken
      have handed : next.handed = w.handed := by
        rw [← taken, VoiceWorld.handed, List.filterMap_append]
        exact List.append_nil _
      rw [handed]
      exact iff_of_false unhanded (not_not_intro cancelled)
    · have free : update.key ∉ w.cancelled := fun cancelled => gone ((mem_settled_iff w _).mpr (.inr cancelled))
      rw [VoiceWorld.decide, if_pos (pending.mpr gone)] at taken
      have handed : next.handed = w.handed ++ [update.key] := by
        rw [← taken, VoiceWorld.handed, List.filterMap_append]
        rfl
      rw [handed]
      exact iff_of_true (List.mem_append_right _ (List.mem_singleton.mpr rfl)) free
  · cases taken

/-- Each voice note goes to the handler once or is cancelled once, never both, whatever the order of the transcriptions and of
    `/clear`; the handler gets the note it was made of, and only a cancelled note's status message is deleted. -/
theorem voice_note_settled_once (platform : VoicePlatform) {w : VoiceWorld}
    (reached : (machine platform).ReachableUnder (fun w a => w.freshIds a = true) w) :
    (w.handed ++ w.cancelled).Nodup ∧
    (∀ incoming, .handed incoming ∈ w.effects →
      ∃ r ∈ w.registered, ∃ text, incoming = platform.incoming r.1 text r.2) ∧
    (∀ chatId statusMsgId, .deleted chatId statusMsgId ∈ w.effects →
      ∃ r ∈ w.registered, r.1.key ∈ w.cancelled ∧ chatId = r.1.chatId ∧ statusMsgId = r.2) ∧
    ∀ number text next, w.step platform (.transcribed number text) = some next → ∀ note, w.notes[number]? = some note →
      (note.update.key ∈ next.handed ↔ note.update.key ∉ w.cancelled) := by
  have sound := sound platform reached
  refine ⟨(settled_perm w).nodup_iff.mp sound.once, sound.genuine, sound.deleted, ?_⟩
  intro number text next taken note found
  exact sound.handed_iff taken found

/-- A note of a chat, cancelled by a reply to its status message while it is being transcribed. -/
def cancelledNote : List VoiceAction :=
  [.receive true true ⟨"1", "7", false, ⟨"10", by decide⟩, none, none, none⟩,
    .receive true true ⟨"1", "7", false, ⟨"11", by decide⟩, none, none, none⟩,
    .statusSent 1 ⟨"12", by decide⟩, .statusSent 0 ⟨"13", by decide⟩, .clear "1" ⟨"12", by decide⟩,
    .transcribed 1 "second", .transcribed 0 "first"]

theorem voice_note_settled_once_cancelled : ∃ w, (machine (.telegram none)).runUnder freshIds (machine (.telegram none)).init
    cancelledNote = some w ∧ w.handed.length = 1 ∧ w.cancelled.length = 1 ∧ (w.handed ++ w.cancelled).Nodup := by
  have runs : ((machine (.telegram none)).runUnder freshIds (machine (.telegram none)).init cancelledNote).isSome = true := by
    decide +kernel
  obtain ⟨w, ran⟩ := Option.isSome_iff_exists.mp runs
  have reached := Machine.reachableUnder_of_runUnder .init ran
  have lengths : ((machine (.telegram none)).runUnder freshIds (machine (.telegram none)).init cancelledNote).map
      (fun w => (w.handed.length, w.cancelled.length)) = some (1, 1) := by decide +kernel
  rw [ran, Option.map_some, Option.some.injEq, Prod.mk.injEq] at lengths
  exact ⟨w, ran, lengths.1, lengths.2, (voice_note_settled_once _ reached).1⟩

end VoiceWorld

end ClaudeProxy.Platforms
