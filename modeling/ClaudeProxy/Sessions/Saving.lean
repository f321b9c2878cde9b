import ClaudeProxy.Kit.Machine
import ClaudeProxy.Sessions.MessageLog
import ClaudeProxy.Sessions.Store

namespace ClaudeProxy.Sessions

open Kit

/-- What `_snapshot` takes. -/
structure Snapshot (Id Node : Type) where
  sessions : SessionStore Id Node
  messageLog : Dict (List Char) (List LogRecord)

structure Memory (Id Node : Type) where
  sessions : SessionStore Id Node
  log : MessageLog

inductive Mutator (Id Node : Type) where
  | recordMessageId (platform chatId : List Char) (messageId : Option (List Char)) (direction kind now : List Char)
  | saveTree (rootId : Id) (treeData : TreeData Id Node)
  | registerNode (nodeId rootId : Id)
  | removeNodeMappings (nodeIds : List Id)
  | removeTree (rootId : Id)
  | syncFromTreeData (trees : Dict Id (TreeData Id Node)) (nodeToTree : Dict Id Id)

namespace Memory

variable {Id Node : Type}

def new (cap : Option Int) : Memory Id Node := ⟨.new, .new cap⟩

def cleared (m : Memory Id Node) : Memory Id Node := ⟨.new, m.log.clearAll⟩

/-- The sets of ids are not saved. -/
def snapshot (m : Memory Id Node) : Snapshot Id Node := ⟨m.sessions, m.log.messageLog⟩

variable [DecidableEq Id]

/-- What a mutator leaves in memory; none where it returns before `_schedule_save`. -/
def mutate (m : Memory Id Node) : Mutator Id Node → Option (Memory Id Node)
  | .recordMessageId platform chatId messageId direction kind now =>
    if m.log.passesOver platform chatId messageId then none
    else some { m with log := m.log.recordMessageId platform chatId messageId direction kind now }
  | .saveTree rootId treeData => some { m with sessions := m.sessions.saveTree rootId treeData }
  | .registerNode nodeId rootId => some { m with sessions := m.sessions.registerNode nodeId rootId }
  | .removeNodeMappings nodeIds => some { m with sessions := m.sessions.popMappings nodeIds }
  | .removeTree rootId =>
    if m.sessions.trees.contains rootId then some { m with sessions := m.sessions.removeTree rootId } else none
  | .syncFromTreeData trees nodeToTree => some { m with sessions := ⟨trees, nodeToTree⟩ }

end Memory

inductive TimerPhase where
  | pending
  /-- The thread has passed its wait: cancelling no longer stops the callback. -/
  | fired
  | finished
deriving DecidableEq

inductive SavePhase where
  | writing
  | failed
  | returned
deriving DecidableEq

/-- A snapshot on its way to the file. -/
structure Save (Id Node : Type) where
  snapshot : Snapshot Id Node
  /-- Taken by `flush_pending_save` or `clear_all`. -/
  flushes : Bool
  phase : SavePhase

/-- The store, its timers and the threads that write; saves are numbered in the order of their snapshots. -/
structure PersistedStore (Id Node : Type) where
  memory : Memory Id Node
  dirty : Bool
  saveTimer : Option Nat
  timers : List TimerPhase
  saves : List (Save Id Node)
  /-- What the file holds; nothing that can be read after a write that failed half way. -/
  file : Option (Snapshot Id Node)
  /-- The saves that were written, in the order of the writes. -/
  written : List Nat
  /-- Whether a write has failed. -/
  writeFailed : Bool

inductive SaveAction (Id Node : Type) where
  | mutate (mutator : Mutator Id Node)
  | fire (timer : Nat)
  | callback (timer : Nat)
  | flushPendingSave
  | clearAll
  | write (save : Nat)
  /-- The write raises; the file is as it was if it could not be opened. -/
  | fail (save : Nat) (opened : Bool)
  /-- The `except` clause of the writer. -/
  | markDirty (save : Nat)

namespace PersistedStore

variable {Id Node : Type}

/-- Just loaded from the file. -/
def loaded (memory : Memory Id Node) : PersistedStore Id Node :=
  ⟨memory, false, none, [], [], some memory.snapshot, [], false⟩

def cancelTimer (s : PersistedStore Id Node) : PersistedStore Id Node :=
  match s.saveTimer with
  | none => s
  | some timer => { s with
      timers := if s.timers[timer]? = some .pending then s.timers.set timer .finished else s.timers
      saveTimer := none }

def scheduleSave (s : PersistedStore Id Node) : PersistedStore Id Node :=
  let s := { s with dirty := true }.cancelTimer
  { s with timers := s.timers ++ [.pending], saveTimer := some s.timers.length }

def takeSnapshot (s : PersistedStore Id Node) (flushes : Bool) : PersistedStore Id Node :=
  { s with saves := s.saves ++ [⟨s.memory.snapshot, flushes, .writing⟩], dirty := false }

def saveFromTimer (s : PersistedStore Id Node) : PersistedStore Id Node :=
  if s.dirty then { s.takeSnapshot false with saveTimer := none } else { s with saveTimer := none }

def flushSave (s : PersistedStore Id Node) : PersistedStore Id Node := s.cancelTimer.takeSnapshot true

def setPhase (s : PersistedStore Id Node) (number : Nat) (save : Save Id Node) (phase : SavePhase) :
    PersistedStore Id Node :=
  { s with saves := s.saves.set number { save with phase := phase } }

variable [DecidableEq Id]

def step (s : PersistedStore Id Node) : SaveAction Id Node → Option (PersistedStore Id Node)
  | .mutate mutator =>
    match s.memory.mutate mutator with
    | none => some s
    | some memory => some { s with memory := memory }.scheduleSave
  | .fire timer => if s.timers[timer]? = some .pending then some { s with timers := s.timers.set timer .fired } else none
  | .callback timer =>
    if s.timers[timer]? = some .fired then some { s with timers := s.timers.set timer .finished }.saveFromTimer else none
  | .flushPendingSave => some s.flushSave
  | .clearAll => some { s with memory := s.memory.cleared }.flushSave
  | .write number =>
    match s.saves[number]? with
    | some ⟨snapshot, flushes, .writing⟩ =>
      some { s.setPhase number ⟨snapshot, flushes, .writing⟩ .returned with
        file := some snapshot
        written := s.written ++ [number] }
    | _ => none
  | .fail number opened =>
    match s.saves[number]? with
    | some ⟨snapshot, flushes, .writing⟩ =>
      some { s.setPhase number ⟨snapshot, flushes, .writing⟩ .failed with
        file := if opened then none else s.file
        writeFailed := true }
    | _ => none
  | .markDirty number =>
    match s.saves[number]? with
    | some ⟨snapshot, flushes, .failed⟩ => some
      { s.setPhase number ⟨snapshot, flushes, .failed⟩ .returned with dirty := true }
    | _ => none

def machine (memory : Memory Id Node) : Machine (PersistedStore Id Node) (SaveAction Id Node) := ⟨loaded memory, step⟩

end PersistedStore

end ClaudeProxy.Sessions
