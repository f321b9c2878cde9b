import Mathlib.Data.List.Sort
import ClaudeProxy.Kit.Chunks
import ClaudeProxy.Kit.Digits
import ClaudeProxy.Providers.HeuristicToolParser

namespace ClaudeProxy.Handler

open Kit Providers

inductive PlatformCall
  | queueDeleteMessages (chatId : Str) (messageIds : List Str)
  | queueDeleteMessage (chatId messageId : Str)
  deriving DecidableEq

def PlatformCall.messageIds : PlatformCall → List Str
  | .queueDeleteMessages _ messageIds => messageIds
  | .queueDeleteMessage _ messageId => [messageId]

/-- Whether the platform has the batch function, and how its calls end, in their order. -/
structure Platform where
  batches : Bool
  result : Nat → Except Str Unit

structure Attempt where
  calls : List PlatformCall
  outcome : Except Str Unit

namespace Attempt

def andThen (first next : Attempt) : Attempt :=
  match first.outcome with
  | .ok _ => ⟨first.calls ++ next.calls, next.outcome⟩
  | .error _ => first

/-- `try … except Exception`, which only logs -/
def suppressed (body : Attempt) : Attempt := ⟨body.calls, .ok ()⟩

def messageIds (attempt : Attempt) : List Str := attempt.calls.flatMap PlatformCall.messageIds

end Attempt

def asInt (s : Str) : Option Int := int? s

def numericIds (msgIds : List Str) : List (Int × Str) :=
  msgIds.filterMap fun mid => (asInt mid).map fun n => (n, mid)

def nonNumericIds (msgIds : List Str) : List Str := msgIds.filter fun mid => (asInt mid).isNone

def comesFirst (a b : Int × Str) : Bool := b.1 < a.1 ∨ b.1 = a.1 ∧ ¬ a.2 < b.2

def orderedIds (msgIds : List Str) : List Str :=
  ((numericIds msgIds).mergeSort comesFirst).map Prod.snd ++ nonNumericIds msgIds

section Loops

variable (result : Nat → Except Str Unit) (chatId : Str)

def deleteBatches : Nat → List (List Str) → Attempt
  | _, [] => ⟨[], .ok ()⟩
  | n, chunk :: rest => Attempt.andThen ⟨[.queueDeleteMessages chatId chunk], result n⟩ (deleteBatches (n + 1) rest)

def deleteEach : Nat → List Str → Attempt
  | _, [] => ⟨[], .ok ()⟩
  | n, mid :: rest =>
    Attempt.andThen (Attempt.suppressed ⟨[.queueDeleteMessage chatId mid], result n⟩) (deleteEach (n + 1) rest)

end Loops

def chunkSize : Nat := 100

/-- The set is the list of its elements in the order in which the loop meets them. -/
def deleteMessageIds (platform : Platform) (chatId : Str) (msgIds : List Str) : Attempt :=
  if msgIds = [] then ⟨[], .ok ()⟩
  else if platform.batches then
    (deleteBatches platform.result chatId 0 (chunks chunkSize (orderedIds msgIds))).suppressed
  else deleteEach platform.result chatId 0 (orderedIds msgIds)

def NumbersDescend (ids : List Str) : Prop :=
  ∃ numbers others, ids = numbers ++ others ∧ (∀ id ∈ others, asInt id = none) ∧ (∀ id ∈ numbers, asInt id ≠ none) ∧
    numbers.Pairwise fun a b => ∀ m n, asInt a = some m → asInt b = some n → n ≤ m

structure DeletesAll (chatId : Str) (msgIds : List Str) (attempt : Attempt) : Prop where
  returns : attempt.outcome = .ok ()
  once : ∀ id, attempt.messageIds.count id = if id ∈ msgIds then 1 else 0
  descend : NumbersDescend attempt.messageIds
  batches : ∀ call ∈ attempt.calls, call.messageIds.length ≤ 100
  paths : ∀ result, attempt.messageIds = (deleteMessageIds ⟨false, result⟩ chatId msgIds).messageIds

def ChunksAccepted (platform : Platform) (msgIds : List Str) : Prop :=
  platform.batches = true → ∀ n, chunkSize * (n + 1) < msgIds.length → platform.result n = .ok ()

section Order

variable {msgIds : List Str}

theorem comesFirst_trans (a b c : Int × Str) (first : comesFirst a b = true) (second : comesFirst b c = true) :
    comesFirst a c = true := by
  simp only [comesFirst, decide_eq_true_eq] at first second ⊢
  rcases first with less | ⟨same, above⟩
  · rcases second with less' | ⟨same', -⟩
    · left
      omega
    · left
      omega
  · rcases second with less' | ⟨same', above'⟩
    · left
      omega
    · right
      exact ⟨by omega, List.not_lt.mpr (List.le_trans (List.not_lt.mp above') (List.not_lt.mp above))⟩

theorem comesFirst_total (a b : Int × Str) : (comesFirst a b || comesFirst b a) = true := by
  rw [Bool.or_eq_true]
  simp only [comesFirst, decide_eq_true_eq]
  rcases lt_trichotomy a.1 b.1 with less | same | more
  · exact .inr (.inl less)
  · rcases List.le_total a.2 b.2 with below | above
    · exact .inr (.inr ⟨same, List.not_lt.mpr below⟩)
    · exact .inl (.inr ⟨same.symm, List.not_lt.mpr above⟩)
  · exact .inl (.inl more)

theorem map_snd_numericIds (msgIds : List Str) :
    (numericIds msgIds).map Prod.snd = msgIds.filter fun mid => !(asInt mid).isNone := by
  induction msgIds with
  | nil => rfl
  | cons mid rest ih =>
    rw [numericIds, List.filterMap_cons, List.filter_cons]
    cases asInt mid with
    | none => exact ih
    | some n => exact congrArg (mid :: ·) ih

theorem orderedIds_perm (msgIds : List Str) : (orderedIds msgIds).Perm msgIds := by
  have sorted : (((numericIds msgIds).mergeSort comesFirst).map Prod.snd).Perm ((numericIds msgIds).map Prod.snd) :=
    (List.mergeSort_perm _ _).map _
  rw [map_snd_numericIds] at sorted
  have both := sorted.append_right (nonNumericIds msgIds)
  exact both.trans (List.perm_append_comm.trans (List.filter_append_perm _ _))

theorem asInt_of_mem_numericIds {pair : Int × Str} (mem : pair ∈ numericIds msgIds) : asInt pair.2 = some pair.1 := by
  obtain ⟨mid, -, read⟩ := List.mem_filterMap.mp mem
  obtain ⟨n, value, rfl⟩ := Option.map_eq_some_iff.mp read
  exact value

theorem orderedIds_descend (msgIds : List Str) : NumbersDescend (orderedIds msgIds) := by
  have numeric : ∀ pair ∈ (numericIds msgIds).mergeSort comesFirst, asInt pair.2 = some pair.1 :=
    fun pair mem => asInt_of_mem_numericIds (List.mem_mergeSort.mp mem)
  refine ⟨_, _, rfl, ?_, ?_, ?_⟩
  · intro id mem
    exact Option.isNone_iff_eq_none.mp (List.mem_filter.mp mem).2
  · intro id mem
    obtain ⟨pair, found, rfl⟩ := List.mem_map.mp mem
    rw [numeric pair found]
    exact Option.some_ne_none _
  · rw [List.pairwise_map]
    have sorted := List.pairwise_mergeSort comesFirst_trans comesFirst_total (numericIds msgIds)
    apply sorted.imp_of_mem
    intro a b memA memB before m n readA readB
    rw [numeric a memA, Option.some.injEq] at readA
    rw [numeric b memB, Option.some.injEq] at readB
    simp only [comesFirst, decide_eq_true_eq] at before
    omega

end Order

section Runs

variable {result : Nat → Except Str Unit} {chatId : Str}

theorem deleteEach_messageIds (ids : List Str) (n : Nat) : (deleteEach result chatId n ids).messageIds = ids := by
  induction ids generalizing n with
  | nil => rfl
  | cons mid rest ih => exact congrArg (mid :: ·) (ih (n + 1))

theorem deleteEach_returns (ids : List Str) (n : Nat) : (deleteEach result chatId n ids).outcome = .ok () := by
  induction ids generalizing n with
  | nil => rfl
  | cons mid rest ih => exact ih (n + 1)

theorem deleteEach_single (ids : List Str) (n : Nat) :
    ∀ call ∈ (deleteEach result chatId n ids).calls, call.messageIds.length ≤ 100 := by
  induction ids generalizing n with
  | nil => intro call mem; cases mem
  | cons mid rest ih =>
    intro call mem
    rcases List.mem_cons.mp mem with rfl | later
    · exact Nat.succ_le_succ (Nat.zero_le 99)
    · exact ih (n + 1) call later

theorem deleteBatches_cons_ok {n : Nat} (accepted : result n = .ok ()) (chunk : List Str) (rest : List (List Str)) :
    (deleteBatches result chatId n (chunk :: rest)).calls =
      .queueDeleteMessages chatId chunk :: (deleteBatches result chatId (n + 1) rest).calls := by
  rw [deleteBatches, Attempt.andThen, accepted]
  rfl

theorem deleteBatches_cons_error {n : Nat} {e : Str} (raised : result n = .error e) (chunk : List Str)
    (rest : List (List Str)) :
    (deleteBatches result chatId n (chunk :: rest)).calls = [.queueDeleteMessages chatId chunk] := by
  rw [deleteBatches, Attempt.andThen, raised]

/-- The calls go on up to the first chunk that raises. -/
theorem deleteBatches_calls (batches : List (List Str)) (n : Nat) :
    ∃ k, (deleteBatches result chatId n batches).calls = (batches.take k).map (.queueDeleteMessages chatId) ∧
      (∀ i e, result (n + i) = .error e → i + 1 < batches.length → k ≤ i + 1) ∧
      ((∀ i, i + 1 < batches.length → result (n + i) = .ok ()) → batches.length ≤ k) := by
  induction batches generalizing n with
  | nil => exact ⟨0, rfl, fun _ _ _ _ => Nat.zero_le _, fun _ => Nat.le_refl _⟩
  | cons chunk rest ih =>
    cases ends : result n with
    | ok _ =>
      obtain ⟨k, calls, stops, completes⟩ := ih (n + 1)
      refine ⟨k + 1, ?_, ?_, ?_⟩
      · rw [deleteBatches_cons_ok ends, calls]
        rfl
      · intro i e raised within
        cases i with
        | zero =>
          rw [Nat.add_zero, ends] at raised
          cases raised
        | succ i =>
          have shift : n + (i + 1) = n + 1 + i := by omega
          rw [shift] at raised
          have bound := stops i e raised (Nat.lt_of_succ_lt_succ within)
          omega
      · intro accepted
        apply Nat.succ_le_succ
        apply completes
        intro i within
        have shift : n + 1 + i = n + (i + 1) := by omega
        rw [shift]
        exact accepted (i + 1) (Nat.succ_lt_succ within)
    | error e =>
      refine ⟨1, ?_, ?_, ?_⟩
      · rw [deleteBatches_cons_error ends]
        rfl
      · intro i _ _ _
        omega
      · intro accepted
        cases rest with
        | nil => exact Nat.le_refl _
        | cons second rest =>
          have first := accepted 0 (Nat.succ_lt_succ (Nat.succ_pos _))
          rw [Nat.add_zero, ends] at first
          cases first

theorem flatMap_batches (batches : List (List Str)) :
    (batches.map (PlatformCall.queueDeleteMessages chatId)).flatMap PlatformCall.messageIds = batches.flatten := by
  rw [List.flatMap_map]
  exact List.flatMap_id'

end Runs

section Deletion

variable {platform : Platform} {msgIds : List Str}

theorem orderedIds_nil : orderedIds [] = [] := by
  have empty := (orderedIds_perm []).eq_nil
  exact empty

theorem deleteMessageIds_false (result : Nat → Except Str Unit) (chatId : Str) (msgIds : List Str) :
    deleteMessageIds ⟨false, result⟩ chatId msgIds = deleteEach result chatId 0 (orderedIds msgIds) := by
  unfold deleteMessageIds
  by_cases empty : msgIds = []
  · rw [if_pos empty, empty, orderedIds_nil]
    rfl
  · rw [if_neg empty]
    rfl

theorem deletesAll_of_ordered {chatId : Str} {attempt : Attempt} (distinct : msgIds.Nodup)
    (returns : attempt.outcome = .ok ())
    (all : attempt.messageIds = orderedIds msgIds) (batches : ∀ call ∈ attempt.calls, call.messageIds.length ≤ 100) :
    DeletesAll chatId msgIds attempt := by
  refine ⟨returns, ?_, ?_, batches, ?_⟩
  · intro id
    rw [all, (orderedIds_perm msgIds).count_eq]
    exact distinct.count
  · rw [all]
    exact orderedIds_descend msgIds
  · intro result
    rw [all, deleteMessageIds_false]
    exact (deleteEach_messageIds _ 0).symm

theorem deleteMessageIds_true (result : Nat → Except Str Unit) (chatId : Str) (msgIds : List Str) :
    deleteMessageIds ⟨true, result⟩ chatId msgIds =
      (deleteBatches result chatId 0 (chunks chunkSize (orderedIds msgIds))).suppressed := by
  unfold deleteMessageIds
  by_cases empty : msgIds = []
  · rw [if_pos empty, empty, orderedIds_nil]
    rfl
  · rw [if_neg empty]
    rfl

theorem deletesAll_each (result : Nat → Except Str Unit) (chatId : Str) (distinct : msgIds.Nodup) :
    DeletesAll chatId msgIds (deleteMessageIds ⟨false, result⟩ chatId msgIds) := by
  rw [deleteMessageIds_false]
  exact deletesAll_of_ordered distinct (deleteEach_returns _ 0) (deleteEach_messageIds _ 0) (deleteEach_single _ 0)

/-- What the batch path hands over is a beginning of the ordered ids, of whole chunks. -/
theorem deleteMessageIds_batches (result : Nat → Except Str Unit) (chatId : Str) (msgIds : List Str) :
    ∃ k, (deleteMessageIds ⟨true, result⟩ chatId msgIds).calls =
        ((chunks chunkSize (orderedIds msgIds)).take k).map (.queueDeleteMessages chatId) ∧
      (∀ n e, result n = .error e → chunkSize * (n + 1) < msgIds.length → k ≤ n + 1) ∧
      (ChunksAccepted ⟨true, result⟩ msgIds → (chunks chunkSize (orderedIds msgIds)).length ≤ k) := by
  have within : ∀ n, n + 1 < (chunks chunkSize (orderedIds msgIds)).length ↔ chunkSize * (n + 1) < msgIds.length := by
    intro n
    rw [lt_length_chunks_iff (by decide), (orderedIds_perm msgIds).length_eq]
  rw [deleteMessageIds_true]
  obtain ⟨k, calls, stops, completes⟩ := @deleteBatches_calls result chatId (chunks chunkSize (orderedIds msgIds)) 0
  refine ⟨k, calls, ?_, ?_⟩
  · intro n e raised more
    apply stops n e
    · rwa [Nat.zero_add]
    · exact (within n).mpr more
  · intro accepted
    apply completes
    intro i later
    rw [Nat.zero_add]
    exact accepted rfl i ((within i).mp later)

theorem deletesAll_batches {result : Nat → Except Str Unit} (chatId : Str) (distinct : msgIds.Nodup)
    (accepted : ChunksAccepted ⟨true, result⟩ msgIds) :
    DeletesAll chatId msgIds (deleteMessageIds ⟨true, result⟩ chatId msgIds) := by
  obtain ⟨k, calls, -, completes⟩ := deleteMessageIds_batches result chatId msgIds
  rw [List.take_of_length_le (completes accepted)] at calls
  apply deletesAll_of_ordered distinct
  · rw [deleteMessageIds_true]
    rfl
  · rw [Attempt.messageIds, calls, flatMap_batches, flatten_chunks (by decide)]
  · intro call mem
    rw [calls] at mem
    obtain ⟨chunk, found, rfl⟩ := List.mem_map.mp mem
    exact length_le_of_mem_chunks found

theorem length_messageIds_le {result : Nat → Except Str Unit} (chatId : Str) {n : Nat} {e : Str}
    (raised : result n = .error e) (more : chunkSize * (n + 1) < msgIds.length) :
    (deleteMessageIds ⟨true, result⟩ chatId msgIds).messageIds.length ≤ chunkSize * (n + 1) := by
  obtain ⟨k, calls, stops, -⟩ := deleteMessageIds_batches result chatId msgIds
  have few : k ≤ n + 1 := stops n e raised more
  rw [Attempt.messageIds, calls, flatMap_batches]
  exact (length_flatten_take_chunks _ _ k).trans (Nat.mul_le_mul_left _ few)

theorem not_deletesAll_batches {result : Nat → Except Str Unit} (chatId : Str) {n : Nat} {e : Str}
    (raised : result n = .error e) (more : chunkSize * (n + 1) < msgIds.length) :
    ¬ DeletesAll chatId msgIds (deleteMessageIds ⟨true, result⟩ chatId msgIds) := by
  intro deleted
  have all := deleted.paths result
  rw [deleteMessageIds_false, deleteEach_messageIds] at all
  have handed := length_messageIds_le chatId raised more
  rw [all, (orderedIds_perm msgIds).length_eq] at handed
  omega

theorem deletesAll_iff (platform : Platform) (chatId : Str) (msgIds : List Str) (distinct : msgIds.Nodup) :
    DeletesAll chatId msgIds (deleteMessageIds platform chatId msgIds) ↔ ChunksAccepted platform msgIds := by
  rcases platform with ⟨batches, result⟩
  cases batches with
  | false =>
    apply iff_of_true
    · exact deletesAll_each result chatId distinct
    · intro batches
      cases batches
  | true =>
    constructor
    · intro deleted _ n more
      cases ends : result n with
      | ok _ => exact ends
      | error e => exact absurd deleted (not_deletesAll_batches chatId ends more)
    · exact deletesAll_batches chatId distinct

theorem deletesAll_iff_two :
    DeletesAll "chat".toList ["12".toList, "x".toList]
        (deleteMessageIds ⟨true, fun _ => .error []⟩ "chat".toList ["12".toList, "x".toList]) ↔
      ChunksAccepted ⟨true, fun _ => .error []⟩ ["12".toList, "x".toList] :=
  deletesAll_iff _ _ _ (by decide)

end Deletion

section Failure

def manyIds : List Str := (List.range 101).map fun n => Nat.toDigits 10 (n + 1)

def firstRaises (n : Nat) : Except Str Unit := if n = 0 then .error "Flood".toList else .ok ()

theorem manyIds_nodup : manyIds.Nodup := by decide +kernel

theorem not_deletesAll : ¬ ∀ (platform : Platform) (chatId : Str) (msgIds : List Str), msgIds.Nodup →
    DeletesAll chatId msgIds (deleteMessageIds platform chatId msgIds) := by
  intro all
  have deleted := all ⟨true, firstRaises⟩ "chat".toList manyIds manyIds_nodup
  have long : chunkSize * (0 + 1) < manyIds.length := by
    rw [manyIds, List.length_map, List.length_range]
    decide
  exact not_deletesAll_batches "chat".toList (n := 0) rfl long deleted

end Failure

end ClaudeProxy.Handler
