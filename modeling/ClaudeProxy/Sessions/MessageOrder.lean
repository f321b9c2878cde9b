import ClaudeProxy.Sessions.MessageLog

namespace ClaudeProxy.Sessions

open Kit

structure LogSound (s : MessageLog) (chatKey : List Char) (history : List (List Char)) : Prop where
  distinct : (s.ids chatKey).Nodup
  index : ∀ mid, mid ∈ s.seen chatKey ↔ mid ∈ s.ids chatKey
  recorded : ∀ mid ∈ s.ids chatKey, mid ∈ history
  ordered : (s.ids chatKey).Pairwise fun earlier later => lastRecorded history earlier < lastRecorded history later

/-- What the calls keep: the log is the end of the history, without repetitions. -/
structure LogKept (cap : Int) (chatKey : List Char) (s : MessageLog) (history : List (List Char)) : Prop where
  capped : s.messageLogCap = some cap
  distinct : (s.ids chatKey).Nodup
  index : s.seen chatKey = (s.ids chatKey).toFinset
  suffix : s.ids chatKey <:+ history

section Order

variable {ids history : List (List Char)}

theorem pairwise_idxOf (distinct : ids.Nodup) : ids.Pairwise fun a b => ids.idxOf a < ids.idxOf b := by
  rw [List.pairwise_iff_getElem]
  intro i j first second less
  rw [distinct.idxOf_getElem i first, distinct.idxOf_getElem j second]
  exact less

theorem lastRecorded_suffix (suffix : ids <:+ history) {mid : List Char} (mem : mid ∈ ids) :
    lastRecorded history mid = history.length - ids.reverse.idxOf mid := by
  obtain ⟨front, rfl⟩ := suffix
  rw [lastRecorded, List.reverse_append, List.idxOf_append_of_mem (List.mem_reverse.mpr mem)]

/-- At the end of a history every id stands by its last recording. -/
theorem ordered_of_suffix (distinct : ids.Nodup) (suffix : ids <:+ history) :
    ids.Pairwise fun earlier later => lastRecorded history earlier < lastRecorded history later := by
  have reversed := pairwise_idxOf (List.nodup_reverse.mpr distinct)
  rw [List.pairwise_reverse] at reversed
  apply reversed.imp_of_mem
  intro earlier later memEarlier memLater less
  rw [lastRecorded_suffix suffix memEarlier, lastRecorded_suffix suffix memLater]
  have inside : ids.reverse.idxOf earlier < ids.reverse.length :=
    List.idxOf_lt_length_of_mem (List.mem_reverse.mpr memEarlier)
  have short := suffix.length_le
  rw [List.length_reverse] at inside
  omega

end Order

theorem LogKept.sound {cap : Int} {chatKey : List Char} {s : MessageLog} {history : List (List Char)}
    (kept : LogKept cap chatKey s history) : LogSound s chatKey history where
  distinct := kept.distinct
  index mid := by rw [kept.index, List.mem_toFinset]
  recorded _ mem := kept.suffix.subset mem
  ordered := ordered_of_suffix kept.distinct kept.suffix

section Calls

variable {cap : Int} {chatKey : List Char} {s : MessageLog} {history : List (List Char)}

theorem ids_of_set {s : MessageLog} {k : List Char} {items : List LogRecord} {ids : Dict (List Char) (Finset (List Char))}
    {limit : Option Int} (chatKey : List Char) :
    (MessageLog.mk (s.messageLog.set k items) ids limit).ids chatKey =
      if chatKey = k then items.map LogRecord.messageId else s.ids chatKey := by
  unfold MessageLog.ids MessageLog.records
  rw [Dict.get?_set]
  split_ifs <;> rfl

theorem seen_of_set {s : MessageLog} {k : List Char} {log : Dict (List Char) (List LogRecord)} {found : Finset (List Char)}
    {limit : Option Int} (chatKey : List Char) :
    (MessageLog.mk log (s.messageLogIds.set k found) limit).seen chatKey = if chatKey = k then found
    else s.seen chatKey := by
  unfold MessageLog.seen
  rw [Dict.get?_set]
  split_ifs <;> rfl

/-- What is left by the cap is the end of the items. -/
theorem trim_spec (positive : 0 < cap) (items : List LogRecord) :
    MessageLog.trim (some cap) items = none ∧ items.length ≤ cap ∨
      ∃ kept, MessageLog.trim (some cap) items = some kept ∧ kept <:+ items ∧ kept.length = cap := by
  unfold MessageLog.trim
  by_cases excess : cap < items.length
  · right
    refine ⟨_, if_pos ⟨positive, excess⟩, List.drop_suffix _ _, ?_⟩
    rw [List.length_drop]
    omega
  · left
    exact ⟨if_neg fun both => excess both.2, by omega⟩

theorem mem_of_suffix_concat {ids front : List (List Char)} {mid : List Char} (suffix : ids <:+ front ++ [mid])
    (some : ids ≠ []) : mid ∈ ids := by
  have last := suffix.getLast some
  rw [List.getLast_concat] at last
  exact last ▸ List.getLast_mem some

/-- A new id goes to the end, and the log is cut to the cap. -/
theorem recordMessageId_new (positive : 0 < cap) (kept : LogKept cap chatKey s history) {platform chatId mid : List Char}
    (key : MessageLog.makeChatKey platform chatId = chatKey) (new : mid ∉ s.ids chatKey) (direction kind now : List Char) :
    LogKept cap chatKey (s.recordMessageId platform chatId (some mid) direction kind now) (history ++ [mid]) ∧
      mid ∈ (s.recordMessageId platform chatId (some mid) direction kind now).ids chatKey ∧
      ((s.recordMessageId platform chatId (some mid) direction kind now).ids chatKey).length ≤ cap := by
  have unseen : mid ∉ s.seen chatKey := by
    rw [kept.index, List.mem_toFinset]
    exact new
  let items := s.records chatKey ++ [⟨mid, now, direction, kind⟩]
  have all : items.map LogRecord.messageId = s.ids chatKey ++ [mid] := List.map_append
  have distinct : (s.ids chatKey ++ [mid]).Nodup := by
    rw [← List.concat_eq_append]
    exact kept.distinct.concat new
  have suffix : s.ids chatKey ++ [mid] <:+ history ++ [mid] := by
    obtain ⟨front, whole⟩ := kept.suffix
    exact ⟨front, by rw [← whole, List.append_assoc]⟩
  rcases trim_spec positive items with ⟨whole, short⟩ | ⟨left, cut, ends, long⟩
  · have run : s.recordMessageId platform chatId (some mid) direction kind now =
        ⟨s.messageLog.set chatKey items, s.messageLogIds.set chatKey (insert mid (s.seen chatKey)), some cap⟩ := by
      simp only [MessageLog.recordMessageId, key, if_neg unseen, kept.capped]
      rw [whole]
    rw [run]
    refine ⟨?_, ?_, ?_⟩
    · refine ⟨rfl, ?_, ?_, ?_⟩
      · rw [ids_of_set, if_pos rfl, all]
        exact distinct
      · rw [ids_of_set, seen_of_set, if_pos rfl, if_pos rfl, all, kept.index]
        ext other
        rw [Finset.mem_insert, List.mem_toFinset, List.mem_toFinset, List.mem_append, List.mem_singleton, or_comm]
      · rw [ids_of_set, if_pos rfl, all]
        exact suffix
    · rw [ids_of_set, if_pos rfl, all]
      exact List.mem_append_right _ (List.mem_singleton_self mid)
    · rw [ids_of_set, if_pos rfl, List.length_map]
      exact short
  · have lefts : left.map LogRecord.messageId <:+ s.ids chatKey ++ [mid] := by
      rw [← all]
      exact ends.map _
    have run : s.recordMessageId platform chatId (some mid) direction kind now =
        ⟨s.messageLog.set chatKey left, s.messageLogIds.set chatKey (left.map LogRecord.messageId).toFinset, some cap⟩ := by
      simp only [MessageLog.recordMessageId, key, if_neg unseen, kept.capped]
      rw [cut]
    rw [run]
    refine ⟨?_, ?_, ?_⟩
    · refine ⟨rfl, ?_, ?_, ?_⟩
      · rw [ids_of_set, if_pos rfl]
        exact distinct.sublist lefts.sublist
      · rw [ids_of_set, seen_of_set, if_pos rfl, if_pos rfl]
      · rw [ids_of_set, if_pos rfl]
        exact lefts.trans suffix
    · rw [ids_of_set, if_pos rfl]
      have some : left.map LogRecord.messageId ≠ [] := by
        intro none
        rw [List.map_eq_nil_iff] at none
        rw [none, List.length_nil] at long
        omega
      exact mem_of_suffix_concat lefts some
    · rw [ids_of_set, if_pos rfl, List.length_map]
      exact Int.le_of_eq long

theorem recordMessageId_same (kept : LogKept cap chatKey s history) {platform chatId : List Char}
    {messageId : Option (List Char)} (direction kind now : List Char)
    (nothing : ∀ mid, messageId = some mid → MessageLog.makeChatKey platform chatId = chatKey → mid ∈ s.ids chatKey) :
    LogKept cap chatKey (s.recordMessageId platform chatId messageId direction kind now) history := by
  cases messageId with
  | none => exact kept
  | some mid =>
    unfold MessageLog.recordMessageId
    by_cases key : MessageLog.makeChatKey platform chatId = chatKey
    · have there : mid ∈ s.seen chatKey := by
        rw [kept.index, List.mem_toFinset]
        exact nothing mid rfl key
      simp only [key, if_pos there]
      exact kept
    · have other : chatKey ≠ MessageLog.makeChatKey platform chatId := Ne.symm key
      dsimp only
      split
      · exact kept
      · split
        all_goals
          refine ⟨kept.capped, ?_, ?_, ?_⟩
          · rw [ids_of_set, if_neg other]
            exact kept.distinct
          · rw [ids_of_set, seen_of_set, if_neg other, if_neg other]
            exact kept.index
          · rw [ids_of_set, if_neg other]
            exact kept.suffix

end Calls

section Load

variable (t : PyText)

theorem nodup_foldl_appendNew (ids : List (List Char)) {history : List (List Char)} (distinct : history.Nodup) :
    (ids.foldl appendNew history).Nodup := by
  induction ids generalizing history with
  | nil => exact distinct
  | cons mid ids ih =>
    apply ih
    unfold appendNew
    split_ifs with there
    · exact distinct
    · rw [← List.concat_eq_append]
      exact distinct.concat there

/-- The loop keeps each id where it stands first, and its set says which ids it has kept. -/
theorem cleanItems_spec (items : List PyValue) (cleaned : List LogRecord) :
    (MessageLog.cleanItems t items cleaned (cleaned.map LogRecord.messageId).toFinset).1.map LogRecord.messageId =
      (items.filterMap (MessageLog.savedId? t)).foldl appendNew (cleaned.map LogRecord.messageId) ∧
    (MessageLog.cleanItems t items cleaned (cleaned.map LogRecord.messageId).toFinset).2 =
      ((items.filterMap (MessageLog.savedId? t)).foldl appendNew (cleaned.map LogRecord.messageId)).toFinset := by
  induction items generalizing cleaned with
  | nil => exact ⟨rfl, rfl⟩
  | cons item rest ih =>
    rw [MessageLog.cleanItems]
    cases saved : MessageLog.savedId? t item with
    | none =>
      rw [List.filterMap_cons_none saved]
      exact ih cleaned
    | some mid =>
      rw [List.filterMap_cons_some saved, List.foldl_cons]
      by_cases there : mid ∈ cleaned.map LogRecord.messageId
      · have known : appendNew (cleaned.map LogRecord.messageId) mid = cleaned.map LogRecord.messageId := if_pos there
        rw [known]
        simp only [if_pos (List.mem_toFinset.mpr there)]
        exact ih cleaned
      · have absent : mid ∉ (cleaned.map LogRecord.messageId).toFinset := by
          rw [List.mem_toFinset]
          exact there
        simp only [if_neg absent]
        generalize one : (LogRecord.mk mid (t.str ((item.get "ts").or (.string [])))
          (t.str ((item.get "direction").or (.string [])))
          (t.str ((item.get "kind").or (.string [])))) = record
        have longer : (cleaned ++ [record]).map LogRecord.messageId = appendNew (cleaned.map LogRecord.messageId) mid := by
          rw [List.map_append, appendNew, if_neg there, ← one]
          rfl
        have index : insert mid (cleaned.map LogRecord.messageId).toFinset =
            ((cleaned ++ [record]).map LogRecord.messageId).toFinset := by
          rw [longer, appendNew, if_neg there]
          ext other
          rw [Finset.mem_insert, List.mem_toFinset, List.mem_toFinset, List.mem_append, List.mem_singleton, or_comm]
        rw [index, ← longer]
        exact ih (cleaned ++ [record])

theorem loadChats_cap (chats : List (List Char × PyValue)) (s : MessageLog) :
    (MessageLog.loadChats t chats s).messageLogCap = s.messageLogCap := by
  induction chats generalizing s with
  | nil => rfl
  | cons chat rest ih =>
    rw [MessageLog.loadChats]
    cases chat.2.items? with
    | none => exact ih s
    | some items => exact ih _

theorem loadChats_chat {chats : List (List Char × PyValue)} (distinct : (chats.map Prod.fst).Nodup) (s : MessageLog)
    (chatKey : List Char) :
    ((MessageLog.loadChats t chats s).ids chatKey, (MessageLog.loadChats t chats s).seen chatKey) =
      match (PyValue.lookup chatKey chats).bind PyValue.items? with
      | none => (s.ids chatKey, s.seen chatKey)
      | some items =>
        ((MessageLog.cleanItems t items [] ∅).1.map LogRecord.messageId, (MessageLog.cleanItems t items [] ∅).2) := by
  induction chats generalizing s with
  | nil => rfl
  | cons chat rest ih =>
    obtain ⟨key, value⟩ := chat
    rw [List.map_cons, List.nodup_cons] at distinct
    have later := ih distinct.2
    rw [MessageLog.loadChats]
    by_cases here : key = chatKey
    · have found : PyValue.lookup chatKey ((key, value) :: rest) = some value := by
        simp [PyValue.lookup, here]
      have missing : PyValue.lookup chatKey rest = none := by
        rw [PyValue.lookup, Option.map_eq_none_iff, List.find?_eq_none]
        intro entry mem same
        have key' : entry.1 = chatKey := by simpa using same
        exact distinct.1 (List.mem_map.mpr ⟨entry, mem, key'.trans here.symm⟩)
      rw [missing, Option.bind_none] at later
      rw [found, Option.bind_some]
      cases value.items? with
      | none => exact later s
      | some items =>
        dsimp only
        rw [later, ids_of_set, seen_of_set, if_pos here.symm, if_pos here.symm]
    · have found : PyValue.lookup chatKey ((key, value) :: rest) = PyValue.lookup chatKey rest := by
        simp [PyValue.lookup, here]
      rw [found]
      cases value.items? with
      | none => exact later s
      | some items =>
        dsimp only
        rw [later, ids_of_set, seen_of_set, if_neg (Ne.symm here), if_neg (Ne.symm here)]

theorem load_kept {cap : Int} {file : Option PyValue} (distinct : ((MessageLog.rawLog file).map Prod.fst).Nodup)
    (chatKey : List Char) :
    LogKept cap chatKey (MessageLog.load t (some cap) file) ((savedIds t file chatKey).foldl appendNew []) := by
  have capped : (MessageLog.load t (some cap) file).messageLogCap = some cap := loadChats_cap t _ _
  have chat := loadChats_chat t distinct (MessageLog.new (some cap)) chatKey
  unfold savedIds
  cases saved : (PyValue.lookup chatKey (MessageLog.rawLog file)).bind PyValue.items? with
  | none =>
    rw [saved] at chat
    obtain ⟨ids, seen⟩ := Prod.mk.inj chat
    refine ⟨capped, ?_, ?_, ?_⟩
    · rw [MessageLog.load, ids]
      exact List.nodup_nil
    · rw [MessageLog.load, seen, ids]
      rfl
    · rw [MessageLog.load, ids]
      exact List.nil_suffix
  | some items =>
    rw [saved] at chat
    obtain ⟨ids, seen⟩ := Prod.mk.inj chat
    obtain ⟨cleaned, index⟩ := cleanItems_spec t items []
    rw [Option.getD_some]
    refine ⟨capped, ?_, ?_, ?_⟩
    · rw [MessageLog.load, ids]
      exact cleaned ▸ nodup_foldl_appendNew _ List.nodup_nil
    · rw [MessageLog.load, seen, ids]
      exact index.trans (congrArg List.toFinset cleaned.symm)
    · rw [MessageLog.load, ids]
      exact cleaned ▸ List.suffix_rfl

end Load

section Runs

variable (t : PyText) {cap : Int} {chatKey : List Char}

theorem apply_kept (positive : 0 < cap) {s : MessageLog} {history : List (List Char)} (kept : LogKept cap chatKey s history)
    (action : LogAction) (wellFormed : action.DistinctKeys) :
    LogKept cap chatKey (action.apply t s) (newlyRecorded t chatKey s action history) := by
  cases action with
  | recordMessageId platform chatId messageId direction kind now =>
    show LogKept cap chatKey _ (history ++ _)
    cases added : (LogAction.recordMessageId platform chatId messageId direction kind now).adds s chatKey with
    | none =>
      rw [Option.toList_none, List.append_nil]
      apply recordMessageId_same kept
      rintro mid rfl key
      by_contra new
      simp [LogAction.adds, key, new] at added
    | some mid =>
      rw [LogAction.adds] at added
      split_ifs at added with key
      obtain ⟨rfl, new⟩ := Option.filter_eq_some_iff.mp added
      exact (recordMessageId_new positive kept key (by simpa using new) direction kind now).1
  | clearAll => exact ⟨kept.capped, List.nodup_nil, rfl, List.nil_suffix⟩
  | reload file =>
    show LogKept cap chatKey (MessageLog.load t s.messageLogCap file) _
    rw [kept.capped]
    exact load_kept t wellFormed chatKey

theorem reachable_kept (positive : 0 < cap) {state : MessageLog × List (List Char)}
    (reached : (logMachine t cap chatKey).ReachableUnder (fun _ action => action.DistinctKeys) state) :
    LogKept cap chatKey state.1 state.2 := by
  refine @Machine.ReachableUnder.invariant _ _ (logMachine t cap chatKey) _
    (fun state => LogKept cap chatKey state.1 state.2)
    ?_ ?_ state reached
  · exact ⟨rfl, List.nodup_nil, rfl, List.nil_suffix⟩
  · intro state action next kept wellFormed taken
    obtain ⟨after, noted⟩ := Machine.watch_step.mp taken
    rw [noted, ← Option.some.inj after]
    exact apply_kept t positive kept action wellFormed

/-- The log of every chat, in every state that the calls of a store with a positive cap lead to. -/
theorem logSound (positive : 0 < cap) (chatKey : List Char) (s : MessageLog) (history : List (List Char))
    (reached : (logMachine t cap chatKey).ReachableUnder (fun _ action => action.DistinctKeys) (s, history)) :
    LogSound s chatKey history ∧ ∀ (action : LogAction) (mid : List Char), action.adds s chatKey = some mid →
      mid ∈ (action.apply t s).ids chatKey ∧ ((action.apply t s).ids chatKey).length ≤ cap := by
  have kept := reachable_kept t positive reached
  refine ⟨kept.sound, fun action mid added => ?_⟩
  cases action with
  | recordMessageId platform chatId messageId direction kind now =>
    rw [LogAction.adds] at added
    split_ifs at added with key
    obtain ⟨rfl, new⟩ := Option.filter_eq_some_iff.mp added
    exact (recordMessageId_new positive kept key (by simpa using new) direction kind now).2
  | clearAll => cases added
  | reload file => cases added

def messageOf (mid : String) : LogAction :=
  .recordMessageId "telegram".toList "7".toList
    (some mid.toList) "in".toList "text".toList "2026-03-16T09:00:00+00:00".toList

/-- Three messages and a cap of two. -/
theorem logSound_three : ∃ s history, MessageLog.ids s "telegram:7".toList = ["12".toList, "13".toList] ∧
    LogSound s "telegram:7".toList history ∧ ∀ (action : LogAction) (mid : List Char),
      action.adds s "telegram:7".toList = some mid → mid ∈ (action.apply PyText.ascii s).ids "telegram:7".toList ∧
        ((action.apply PyText.ascii s).ids "telegram:7".toList).length ≤ (2 : Int) := by
  let start : MessageLog := .new (some 2)
  let s := (messageOf "13").apply PyText.ascii ((messageOf "12").apply PyText.ascii ((messageOf "11").apply PyText.ascii start))
  have reached : (logMachine PyText.ascii 2 "telegram:7".toList).ReachableUnder (fun _ action => action.DistinctKeys)
      (s, ["11".toList, "12".toList, "13".toList]) :=
    .step (.step (.step .init trivial (a := messageOf "11") rfl) trivial (a := messageOf "12") rfl) trivial
      (a := messageOf "13") rfl
  exact ⟨s, _, by decide, logSound PyText.ascii (by decide) _ _ _ reached⟩

end Runs

end ClaudeProxy.Sessions
