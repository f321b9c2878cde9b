import ClaudeProxy.Kit.Machine
import ClaudeProxy.Providers.SSEBuilder
import Mathlib.Data.List.Infix
import Mathlib.Data.List.Range

namespace ClaudeProxy.Providers

open Kit

inductive BlockType where
  | thinking
  | text
  | toolUse
deriving DecidableEq

def ContentBlock.type : ContentBlock → BlockType
  | .thinking _ => .thinking
  | .text _ => .text
  | .toolUse _ _ => .toolUse

def Delta.blockType : Delta → BlockType
  | .thinkingDelta _ => .thinking
  | .textDelta _ => .text
  | .inputJsonDelta _ => .toolUse

def Event.started : Event → Option (Int × BlockType)
  | .contentBlockStart index block => some (index, block.type)
  | _ => none

def Event.stopped : Event → Option Int
  | .contentBlockStop index => some index
  | _ => none

def Event.ofBlock : Event → Bool
  | .contentBlockStart _ _ | .contentBlockDelta _ _ | .contentBlockStop _ => true
  | .messageStart _ _ _ | .messageDelta _ _ _ | .messageStop => false

def starts (events : List Event) : List (Int × BlockType) := events.filterMap Event.started

def stops (events : List Event) : List Int := events.filterMap Event.stopped

def openBlocks (events : List Event) : List (Int × BlockType) :=
  (starts events).filter fun block => block.1 ∉ stops events

/-- The order that the Anthropic event stream asks for. -/
structure WellFormed (events : List Event) : Prop where
  framed : ∃ id model input stopReason input' output blocks,
    events = .messageStart id model input :: (blocks ++ [.messageDelta stopReason input' output, .messageStop]) ∧
      ∀ event ∈ blocks, event.ofBlock = true
  numbered : (starts events).map Prod.fst = (List.range (starts events).length).map Int.ofNat
  stoppedOnce : ∀ block ∈ starts events, (stops events).count block.1 = 1
  stoppedOpen : ∀ before index after, events = before ++ .contentBlockStop index :: after →
    ∃ type, (index, type) ∈ openBlocks before
  deltaOpen : ∀ before index delta after, events = before ++ .contentBlockDelta index delta :: after →
    (index, delta.blockType) ∈ openBlocks before
  oneContent : ∀ before after, events = before ++ after →
    ((openBlocks before).filter fun block => block.2 ≠ .toolUse).length ≤ 1

/-- The next block index and the open blocks, as a reader of the events keeps them. -/
structure Ledger where
  next : Int
  opened : List (Int × BlockType)

namespace Ledger

def empty : Ledger := ⟨0, []⟩

/-- `none` rejects the event. -/
def step (l : Ledger) : Event → Option Ledger
  | .contentBlockStart index block =>
    if index = l.next ∧ (block.type ≠ .toolUse → ∀ entry ∈ l.opened, entry.2 = .toolUse) then
      some ⟨l.next + 1, l.opened ++ [(index, block.type)]⟩
    else none
  | .contentBlockDelta index delta => if (index, delta.blockType) ∈ l.opened then some l else none
  | .contentBlockStop index =>
    if index ∈ l.opened.map Prod.fst then some { l with opened := l.opened.filter fun entry => entry.1 ≠ index }
    else none
  | .messageStart _ _ _ | .messageDelta _ _ _ | .messageStop => some l

def run (l : Ledger) (events : List Event) : Option Ledger := runSteps step l events

theorem run_nil (l : Ledger) : l.run [] = some l := rfl

theorem run_cons (l : Ledger) (event : Event) (rest : List Event) :
    l.run (event :: rest) = (l.step event).bind fun next => next.run rest := rfl

theorem run_append (l : Ledger) (events more : List Event) :
    l.run (events ++ more) = (l.run events).bind fun next => next.run more := by
  induction events generalizing l with
  | nil => rfl
  | cons event rest ih =>
    rw [List.cons_append, run_cons, run_cons, Option.bind_assoc]
    congr 1
    funext next
    exact ih next

theorem run_trans {first middle last : Ledger} {events more : List Event} (one : first.run events = some middle)
    (two : middle.run more = some last) : first.run (events ++ more) = some last := by
  rw [run_append, one]
  exact two

structure Records (l : Ledger) (events : List Event) : Prop where
  next : l.next = (starts events).length
  opened : l.opened = openBlocks events
  numbered : (starts events).map Prod.fst = (List.range (starts events).length).map Int.ofNat
  known : ∀ index ∈ stops events, index < l.next
  once : (stops events).Nodup
  oneContent : (l.opened.filter fun block => block.2 ≠ .toolUse).length ≤ 1

theorem starts_append (events more : List Event) : starts (events ++ more) = starts events ++ starts more :=
  List.filterMap_append

theorem stops_append (events more : List Event) : stops (events ++ more) = stops events ++ stops more :=
  List.filterMap_append

theorem openBlocks_append_start (events : List Event) {index : Int} {block : ContentBlock}
    (fresh : index ∉ stops events) :
    openBlocks (events ++ [.contentBlockStart index block]) = openBlocks events ++ [(index, block.type)] := by
  simp [openBlocks, starts, stops, Event.started, Event.stopped] at fresh ⊢
  exact fresh

theorem openBlocks_append_stop (events : List Event) (index : Int) :
    openBlocks (events ++ [.contentBlockStop index]) = (openBlocks events).filter fun entry => entry.1 ≠ index := by
  simp only [openBlocks, starts_append, stops_append, List.filter_filter]
  simp only [starts, stops, List.filterMap_cons, List.filterMap_nil, Event.started, Event.stopped, List.append_nil]
  congr 1
  funext entry
  simp [and_comm]

theorem openBlocks_append_other (events : List Event) {event : Event} (start : event.started = none)
    (stop : event.stopped = none) : openBlocks (events ++ [event]) = openBlocks events := by
  simp [openBlocks, starts, stops, start, stop]

theorem Records.start {l : Ledger} {events : List Event} (records : Records l events) {block : ContentBlock}
    (alone : block.type ≠ .toolUse → ∀ entry ∈ l.opened, entry.2 = .toolUse) :
    Records ⟨l.next + 1, l.opened ++ [(l.next, block.type)]⟩ (events ++ [.contentBlockStart l.next block]) := by
  have fresh : l.next ∉ stops events := fun member => absurd (records.known _ member) (Int.lt_irrefl _)
  have grown : starts (events ++ [.contentBlockStart l.next block]) = starts events ++ [(l.next, block.type)] := by
    rw [starts_append]
    rfl
  have same : stops (events ++ [.contentBlockStart l.next block]) = stops events := by
    rw [stops_append]
    exact List.append_nil _
  refine ⟨?_, ?_, ?_, ?_, ?_, ?_⟩
  · rw [grown, List.length_append, List.length_singleton, records.next]
    rfl
  · rw [openBlocks_append_start events fresh, records.opened]
  · rw [grown, List.map_append, records.numbered, List.length_append, List.length_singleton, List.range_succ,
      List.map_append, records.next]
    rfl
  · intro index member
    rw [same] at member
    have bound := records.known index member
    dsimp only
    omega
  · rw [same]
    exact records.once
  · rw [List.filter_append, List.length_append]
    by_cases tool : block.type = .toolUse
    · have none' : ([(l.next, block.type)].filter fun entry => entry.2 ≠ .toolUse) = [] := by simp [tool]
      rw [none', List.length_nil, Nat.add_zero]
      exact records.oneContent
    · have none' : (l.opened.filter fun entry => entry.2 ≠ .toolUse) = [] := by
        rw [List.filter_eq_nil_iff]
        intro entry member
        simp [alone tool entry member]
      rw [none', List.length_nil, Nat.zero_add]
      exact List.length_filter_le ..

theorem Records.stop {l : Ledger} {events : List Event} (records : Records l events) {index : Int}
    (here : index ∈ l.opened.map Prod.fst) :
    Records { l with opened := l.opened.filter fun entry => entry.1 ≠ index }
      (events ++ [.contentBlockStop index]) := by
  have same : starts (events ++ [.contentBlockStop index]) = starts events := by
    rw [starts_append]
    exact List.append_nil _
  have grown : stops (events ++ [.contentBlockStop index]) = stops events ++ [index] := by
    rw [stops_append]
    rfl
  obtain ⟨entry, member, rfl⟩ := List.mem_map.mp here
  rw [records.opened] at member
  obtain ⟨began, unstopped⟩ := List.mem_filter.mp member
  have fresh : entry.1 ∉ stops events := of_decide_eq_true unstopped
  have bound : entry.1 < l.next := by
    have listed := List.mem_map_of_mem (f := Prod.fst) began
    rw [records.numbered] at listed
    obtain ⟨n, inside, eq⟩ := List.mem_map.mp listed
    have small := List.mem_range.mp inside
    rw [← eq, records.next]
    exact Int.ofNat_lt.mpr small
  refine ⟨?_, ?_, ?_, ?_, ?_, ?_⟩
  · rw [same]
    exact records.next
  · rw [openBlocks_append_stop, records.opened]
  · rw [same]
    exact records.numbered
  · intro other stopped
    rw [grown] at stopped
    rcases List.mem_append.mp stopped with earlier | now
    · exact records.known other earlier
    · rw [List.mem_singleton.mp now]
      exact bound
  · rw [grown]
    refine List.nodup_append.mpr ⟨records.once, List.nodup_singleton _, fun other earlier new now same => ?_⟩
    rw [same, List.mem_singleton.mp now] at earlier
    exact fresh earlier
  · have fewer : List.Sublist ((l.opened.filter fun other => other.1 ≠ entry.1).filter fun block => block.2 ≠ .toolUse)
        (l.opened.filter fun block => block.2 ≠ .toolUse) := List.filter_sublist.filter _
    exact fewer.length_le.trans records.oneContent

theorem Records.other {l : Ledger} {events : List Event} (records : Records l events) {event : Event}
    (start : event.started = none) (stop : event.stopped = none) : Records l (events ++ [event]) := by
  have sameStarts : starts (events ++ [event]) = starts events := by
    rw [starts_append, starts, starts, List.filterMap_cons, start]
    exact List.append_nil _
  have sameStops : stops (events ++ [event]) = stops events := by
    rw [stops_append, stops, stops, List.filterMap_cons, stop]
    exact List.append_nil _
  refine ⟨?_, ?_, ?_, ?_, ?_, records.oneContent⟩
  · rw [sameStarts]
    exact records.next
  · rw [openBlocks_append_other events start stop]
    exact records.opened
  · rw [sameStarts]
    exact records.numbered
  · rw [sameStops]
    exact records.known
  · rw [sameStops]
    exact records.once

theorem Records.step {l next : Ledger} {events : List Event} {event : Event} (records : Records l events)
    (accepted : l.step event = some next) : Records next (events ++ [event]) := by
  cases event with
  | contentBlockStart index block =>
    simp only [Ledger.step] at accepted
    split at accepted
    · rename_i meets
      cases accepted
      rw [meets.1]
      exact records.start meets.2
    · cases accepted
  | contentBlockDelta index delta =>
    simp only [Ledger.step] at accepted
    split at accepted
    · cases accepted
      exact records.other rfl rfl
    · cases accepted
  | contentBlockStop index =>
    simp only [Ledger.step] at accepted
    split at accepted
    · rename_i here
      cases accepted
      exact records.stop here
    · cases accepted
  | messageStart id model input =>
    cases accepted
    exact records.other rfl rfl
  | messageDelta reason input output =>
    cases accepted
    exact records.other rfl rfl
  | messageStop =>
    cases accepted
    exact records.other rfl rfl

theorem records_empty : Records empty [] := ⟨rfl, rfl, rfl, by simp [stops], by simp [stops], by simp [empty]⟩

theorem Records.run {l last : Ledger} {events more : List Event} (records : Records l events)
    (accepted : l.run more = some last) : Records last (events ++ more) := by
  induction more generalizing l events with
  | nil =>
    cases accepted
    rw [List.append_nil]
    exact records
  | cons event rest ih =>
    rw [run_cons] at accepted
    obtain ⟨next, first, later⟩ := Option.bind_eq_some_iff.mp accepted
    have all := ih (records.step first) later
    rwa [List.append_assoc] at all

theorem run_prefix {last : Ledger} {before after : List Event} (accepted : empty.run (before ++ after) = some last) :
    ∃ l, Records l before ∧ l.run after = some last := by
  rw [run_append] at accepted
  obtain ⟨l, first, later⟩ := Option.bind_eq_some_iff.mp accepted
  exact ⟨l, records_empty.run first, later⟩

end Ledger

/-- A framed sequence that a ledger accepts and that leaves no block open is well formed. -/
theorem wellFormed_of_run {events : List Event} {last : Ledger}
    (framed : ∃ id model input stopReason input' output blocks,
      events = .messageStart id model input :: (blocks ++ [.messageDelta stopReason input' output, .messageStop]) ∧
        ∀ event ∈ blocks, event.ofBlock = true)
    (accepted : Ledger.empty.run events = some last) (closed : last.opened = []) : WellFormed events := by
  have records : last.Records events := Ledger.records_empty.run accepted
  refine ⟨framed, records.numbered, ?_, ?_, ?_, ?_⟩
  · intro block member
    have stopped : block.1 ∈ stops events := by
      by_contra unstopped
      have still : block ∈ openBlocks events := List.mem_filter.mpr ⟨member, decide_eq_true unstopped⟩
      rw [← records.opened, closed] at still
      cases still
    exact List.count_eq_one_of_mem records.once stopped
  · intro before index after split
    rw [split] at accepted
    obtain ⟨l, recorded, later⟩ := Ledger.run_prefix accepted
    rw [Ledger.run_cons] at later
    obtain ⟨next, stop, _⟩ := Option.bind_eq_some_iff.mp later
    simp only [Ledger.step] at stop
    split at stop
    · rename_i here
      obtain ⟨entry, member, rfl⟩ := List.mem_map.mp here
      exact ⟨entry.2, recorded.opened ▸ member⟩
    · cases stop
  · intro before index delta after split
    rw [split] at accepted
    obtain ⟨l, recorded, later⟩ := Ledger.run_prefix accepted
    rw [Ledger.run_cons] at later
    obtain ⟨next, passed, _⟩ := Option.bind_eq_some_iff.mp later
    simp only [Ledger.step] at passed
    split at passed
    · rename_i here
      exact recorded.opened ▸ here
    · cases passed
  · intro before after split
    rw [split] at accepted
    obtain ⟨l, recorded, _⟩ := Ledger.run_prefix accepted
    rw [← recorded.opened]
    exact recorded.oneContent

end ClaudeProxy.Providers
