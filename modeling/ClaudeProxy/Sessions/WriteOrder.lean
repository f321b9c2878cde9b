import ClaudeProxy.Sessions.Saving

namespace ClaudeProxy.Sessions

open Kit

namespace PersistedStore

variable {Id Node : Type} {s next : PersistedStore Id Node} {start : Snapshot Id Node}

/-- The file holds nothing older than the snapshot of the given save. -/
def NotOlder (s : PersistedStore Id Node) (number : Nat) : Prop :=
  ∀ snapshot, s.file = some snapshot →
    ∃ last save, s.written.getLast? = some last ∧ number ≤ last ∧ s.saves[last]? = some save ∧ save.snapshot = snapshot

/-- No timer is pending, no write is under way and no write has failed. -/
structure Resting (s : PersistedStore Id Node) : Prop where
  timers : ∀ timer ∈ s.timers, timer = .finished
  saves : ∀ save ∈ s.saves, save.phase = .returned
  writes : s.writeFailed = false

/-- Snapshots are written in the order in which they were taken, what a returned flush has written is not
    overwritten with anything older, and at rest the file holds what is in memory. -/
structure NeverBack (s : PersistedStore Id Node) : Prop where
  ordered : s.written.Pairwise (· < ·)
  flushed : ∀ number save, s.saves[number]? = some save → save.flushes = true → save.phase = .returned → s.NotOlder number
  atRest : s.Resting → s.file = some s.memory.snapshot

def nobodyWrites (s : PersistedStore Id Node) : Bool := s.saves.all fun save => save.phase ≠ .writing

/-- A snapshot is taken only when no other one is still on its way to the file, and no flush fails to write. -/
def oneAtATime (s : PersistedStore Id Node) : SaveAction Id Node → Bool
  | .callback _ => !s.dirty || s.nobodyWrites
  | .flushPendingSave | .clearAll => s.nobodyWrites
  | .fail number _ => s.saves[number]?.all fun save => !save.flushes
  | _ => true

def Writing (s : PersistedStore Id Node) (number : Nat) : Prop :=
  ∃ save, s.saves[number]? = some save ∧ save.phase = .writing

structure OnFile (start : Snapshot Id Node) (s : PersistedStore Id Node) : Prop where
  ordered : s.written.Pairwise (· < ·)
  known : ∀ number ∈ s.written, number < s.saves.length
  single : ∀ number other, s.Writing number → s.Writing other → number = other
  behind : ∀ number, s.Writing number → ∀ other ∈ s.written, other < number
  written : ∀ number save, s.saves[number]? = some save → save.phase = .returned →
    number ∈ s.written ∨ save.flushes = false ∧ s.writeFailed = true
  failed : ∀ (number : Nat) (save : Save Id Node), s.saves[number]? = some save → save.phase = .failed →
    save.flushes = false ∧ s.writeFailed = true
  readable : s.writeFailed = false → s.file.isSome
  holds : ∀ snapshot, s.file = some snapshot → s.written = [] ∧ snapshot = start ∨
    ∃ last save, s.written.getLast? = some last ∧ s.saves[last]? = some save ∧ save.snapshot = snapshot

structure Sound (start : Snapshot Id Node) (s : PersistedStore Id Node) : Prop extends OnFile start s where
  scheduled : s.dirty = true → s.writeFailed = true ∨ ∃ timer ∈ s.timers, timer ≠ .finished
  clean : s.dirty = false → s.memory.snapshot = (s.saves.getLast?.map Save.snapshot).getD start

theorem nobody_writing (nobody : s.nobodyWrites = true) (number : Nat) : ¬ s.Writing number := by
  rintro ⟨save, there, writing⟩
  have idle := List.all_eq_true.mp nobody save (List.mem_of_getElem? there)
  exact of_decide_eq_true idle writing

theorem le_getLast {numbers : List Nat} {number last : Nat} (ordered : numbers.Pairwise (· < ·))
    (member : number ∈ numbers) (ends : numbers.getLast? = some last) : number ≤ last := by
  obtain ⟨front, rfl⟩ := List.getLast?_eq_some_iff.mp ends
  rcases List.mem_append.mp member with earlier | same
  · exact Nat.le_of_lt ((List.pairwise_append.mp ordered).2.2 number earlier last (List.mem_singleton_self last))
  · exact Nat.le_of_eq (List.mem_singleton.mp same)

theorem Sound.neverBack (sound : Sound start s) : NeverBack s where
  ordered := sound.ordered
  flushed number save there flushes returned := by
    have mine : number ∈ s.written := by
      rcases sound.written number save there returned with member | ⟨no, -⟩
      · exact member
      · rw [flushes] at no
        cases no
    intro snapshot held
    rcases sound.holds snapshot held with ⟨nothing, -⟩ | ⟨last, other, ends, here, same⟩
    · rw [nothing] at mine
      cases mine
    · exact ⟨last, other, ends, le_getLast sound.ordered mine ends, here, same⟩
  atRest rest := by
    obtain ⟨snapshot, held⟩ := Option.isSome_iff_exists.mp (sound.readable rest.writes)
    have clean : s.dirty = false := by
      cases dirty : s.dirty with
      | false => rfl
      | true =>
        rcases sound.scheduled dirty with failed | ⟨timer, member, pending⟩
        · rw [rest.writes] at failed
          cases failed
        · exact absurd (rest.timers timer member) pending
    have memory := sound.clean clean
    have all : ∀ number, number < s.saves.length → number ∈ s.written := by
      intro number bound
      have there : s.saves[number]? = some s.saves[number] := List.getElem?_eq_getElem bound
      have returned := rest.saves _ (List.mem_of_getElem? there)
      rcases sound.written number _ there returned with member | ⟨-, failed⟩
      · exact member
      · rw [rest.writes] at failed
        cases failed
    rw [held, memory]
    rcases sound.holds snapshot held with ⟨nothing, same⟩ | ⟨last, save, ends, there, same⟩
    · have none' : s.saves = [] := by
        cases saves : s.saves with
        | nil => rfl
        | cons first rest =>
          have member := all 0 (by rw [saves]; exact Nat.succ_pos _)
          rw [nothing] at member
          cases member
      rw [none', same]
      rfl
    · have bound := (List.getElem?_eq_some_iff.mp there).1
      have final := le_getLast sound.ordered (all (s.saves.length - 1) (by omega)) ends
      have position : last = s.saves.length - 1 := by omega
      rw [List.getLast?_eq_getElem?, ← position, there, Option.map_some, Option.getD_some, same]

theorem sound_loaded (memory : Memory Id Node) : Sound memory.snapshot (loaded memory) where
  ordered := List.Pairwise.nil
  known := nofun
  single := fun _ _ ⟨_, there, _⟩ => nomatch there
  behind := fun _ ⟨_, there, _⟩ => nomatch there
  written := nofun
  failed := nofun
  readable _ := rfl
  holds _ held := .inl ⟨rfl, (Option.some.inj held).symm⟩
  scheduled := nofun
  clean _ := rfl

/-- Timers and memory may change while saves and file stay as they are. -/
theorem OnFile.frame (onFile : OnFile start s) (saves : next.saves = s.saves) (written : next.written = s.written)
    (file : next.file = s.file) (failed : next.writeFailed = s.writeFailed) : OnFile start next where
  ordered := written ▸ onFile.ordered
  known := by
    rw [written, saves]
    exact onFile.known
  single := by
    unfold Writing
    rw [saves]
    exact onFile.single
  behind := by
    unfold Writing
    rw [saves, written]
    exact onFile.behind
  written := by
    rw [saves, written, failed]
    exact onFile.written
  failed := by
    rw [saves, failed]
    exact onFile.failed
  readable := by
    rw [failed, file]
    exact onFile.readable
  holds := by
    rw [file, written, saves]
    exact onFile.holds

theorem cancelTimer_frame (s : PersistedStore Id Node) : s.cancelTimer.saves = s.saves ∧ s.cancelTimer.written = s.written ∧
    s.cancelTimer.file = s.file ∧ s.cancelTimer.writeFailed = s.writeFailed ∧ s.cancelTimer.memory = s.memory ∧
    s.cancelTimer.dirty = s.dirty := by
  unfold cancelTimer
  split
  · exact ⟨rfl, rfl, rfl, rfl, rfl, rfl⟩
  · exact ⟨rfl, rfl, rfl, rfl, rfl, rfl⟩

theorem Sound.schedule (sound : Sound start s) (memory : Memory Id Node) :
    Sound start ({ s with memory := memory }.scheduleSave) := by
  obtain ⟨saves, written, file, failed, -, dirty⟩ := cancelTimer_frame { s with memory := memory, dirty := true }
  refine ⟨sound.toOnFile.frame saves written file failed, fun _ => .inr ⟨.pending, ?_, nofun⟩, fun clean => ?_⟩
  · exact List.mem_append_right _ (List.mem_singleton_self _)
  · exact nomatch (dirty.symm.trans clean : true = false)

theorem lookup_append {save added : Save Id Node} {saves : List (Save Id Node)} {number : Nat}
    (there : (saves ++ [added])[number]? = some save) :
    saves[number]? = some save ∨ number = saves.length ∧ save = added := by
  rcases Nat.lt_or_ge number saves.length with old | new
  · rw [List.getElem?_append_left old] at there
    exact .inl there
  · have bound := (List.getElem?_eq_some_iff.mp there).1
    rw [List.length_append, List.length_singleton] at bound
    have same : number = saves.length := by omega
    rw [same, List.getElem?_concat_length, Option.some.injEq] at there
    exact .inr ⟨same, there.symm⟩

/-- A snapshot is taken while nobody writes. -/
theorem OnFile.takeSnapshot (onFile : OnFile start s) (nobody : s.nobodyWrites = true) (flushes : Bool) :
    Sound start (s.takeSnapshot flushes) where
  ordered := onFile.ordered
  known number member := by
    have old := onFile.known number member
    rw [PersistedStore.takeSnapshot, List.length_append]
    omega
  single := by
    have latest : ∀ number, (s.takeSnapshot flushes).Writing number → number = s.saves.length := by
      rintro number ⟨save, there, writing⟩
      rcases lookup_append there with old | ⟨same, -⟩
      · exact absurd ⟨save, old, writing⟩ (nobody_writing nobody number)
      · exact same
    exact fun number other first second => (latest number first).trans (latest other second).symm
  behind := by
    rintro number ⟨save, there, writing⟩ other member
    rcases lookup_append there with old | ⟨same, -⟩
    · exact absurd ⟨save, old, writing⟩ (nobody_writing nobody number)
    · exact same ▸ onFile.known other member
  written number save there returned := by
    rcases lookup_append there with old | ⟨-, rfl⟩
    · exact onFile.written number save old returned
    · cases returned
  failed number save there failed := by
    rcases lookup_append there with old | ⟨-, rfl⟩
    · exact onFile.failed number save old failed
    · cases failed
  readable := onFile.readable
  holds snapshot held := by
    rcases onFile.holds snapshot held with nothing | ⟨last, save, ends, there, same⟩
    · exact .inl nothing
    · have bound := (List.getElem?_eq_some_iff.mp there).1
      exact .inr ⟨last, save, ends, (List.getElem?_append_left bound).trans there, same⟩
  scheduled := nofun
  clean _ := by
    rw [PersistedStore.takeSnapshot]
    dsimp only
    rw [List.getLast?_concat]
    rfl

theorem nobodyWrites_frame (saves : next.saves = s.saves) (nobody : s.nobodyWrites = true) : next.nobodyWrites = true := by
  rw [nobodyWrites, saves]
  exact nobody

theorem Sound.flush (sound : Sound start s) (nobody : s.nobodyWrites = true) (memory : Memory Id Node) :
    Sound start ({ s with memory := memory }.flushSave) := by
  obtain ⟨saves, written, file, failed, -, -⟩ := cancelTimer_frame { s with memory := memory }
  have onFile := sound.toOnFile.frame saves written file failed
  exact onFile.takeSnapshot (nobodyWrites_frame saves nobody) true

theorem Sound.fromTimer (sound : Sound start s) (timers : List TimerPhase) (meets : (!s.dirty || s.nobodyWrites) = true) :
    Sound start ({ s with timers := timers }.saveFromTimer) := by
  have onFile : OnFile start { s with timers := timers } := sound.toOnFile.frame rfl rfl rfl rfl
  unfold saveFromTimer
  by_cases dirty : s.dirty = true
  · rw [if_pos dirty]
    rw [dirty] at meets
    have taken := onFile.takeSnapshot (nobodyWrites_frame rfl meets) false
    exact ⟨taken.toOnFile.frame rfl rfl rfl rfl, taken.scheduled, taken.clean⟩
  · rw [if_neg dirty]
    have clean := sound.clean (Bool.eq_false_iff.mpr dirty)
    exact ⟨onFile.frame rfl rfl rfl rfl, fun yes => absurd yes dirty, fun _ => clean⟩

theorem lookup_setPhase {number other : Nat} {save found : Save Id Node} {phase : SavePhase}
    (there : (s.setPhase number save phase).saves[other]? = some found) :
    other = number ∧ found = { save with phase := phase } ∨ other ≠ number ∧ s.saves[other]? = some found := by
  unfold setPhase at there
  by_cases same : other = number
  · subst same
    have bound := (List.getElem?_eq_some_iff.mp there).1
    rw [List.length_set] at bound
    rw [List.getElem?_set_self bound, Option.some.injEq] at there
    exact .inl ⟨rfl, there.symm⟩
  · rw [List.getElem?_set_ne fun eq => same eq.symm] at there
    exact .inr ⟨same, there⟩

theorem setPhase_lookup {number other : Nat} {save old found : Save Id Node} (phase : SavePhase)
    (here : s.saves[number]? = some old) (same : save.snapshot = old.snapshot) (there : s.saves[other]? = some found) :
    ∃ after, (s.setPhase number save phase).saves[other]? = some after ∧ after.snapshot = found.snapshot := by
  unfold setPhase
  by_cases eq : other = number
  · subst eq
    have bound := (List.getElem?_eq_some_iff.mp here).1
    rw [here, Option.some.injEq] at there
    subst there
    exact ⟨_, List.getElem?_set_self bound, same⟩
  · refine ⟨found, ?_, rfl⟩
    rw [List.getElem?_set_ne fun eq' => eq eq'.symm]
    exact there

theorem setPhase_last {number : Nat} {save : Save Id Node} (phase : SavePhase) (here : s.saves[number]? = some save) :
    (s.setPhase number save phase).saves.getLast?.map Save.snapshot = s.saves.getLast?.map Save.snapshot := by
  unfold setPhase
  rw [List.getLast?_eq_getElem?, List.getLast?_eq_getElem?, List.length_set, List.getElem?_set]
  split
  · rename_i same
    rw [← same, here, if_pos (List.getElem?_eq_some_iff.mp here).1]
    rfl
  · rfl

/-- A save that has gone on to another phase does not write, and no other one starts to. -/
theorem writing_setPhase {number other : Nat} {save : Save Id Node} {phase : SavePhase} (ended : phase ≠ .writing)
    (busy : (s.setPhase number save phase).Writing other) : other ≠ number ∧ s.Writing other := by
  rcases busy with ⟨found, there, writes⟩
  rcases lookup_setPhase there with ⟨-, rfl⟩ | ⟨different, before⟩
  · exact absurd writes ended
  · exact ⟨different, found, before, writes⟩

section Ended

variable {number : Nat} {save : Save Id Node} {phase : SavePhase}

theorem Sound.nobody_after (sound : Sound start s) (here : s.saves[number]? = some save) (writing : save.phase = .writing)
    (ended : phase ≠ .writing) (other : Nat) : ¬ (s.setPhase number save phase).Writing other := by
  intro busy
  rcases writing_setPhase ended busy with ⟨different, before⟩
  exact different (sound.single other number before ⟨save, here, writing⟩)

theorem Sound.clean_setPhase (sound : Sound start s) (here : s.saves[number]? = some save) (clean : s.dirty = false) :
    s.memory.snapshot = ((s.setPhase number save phase).saves.getLast?.map Save.snapshot).getD start := by
  rw [setPhase_last phase here]
  exact sound.clean clean

theorem Sound.holds_setPhase (sound : Sound start s) (here : s.saves[number]? = some save) {snapshot : Snapshot Id Node}
    (held : s.file = some snapshot) : s.written = [] ∧ snapshot = start ∨
      ∃ last found, s.written.getLast? = some last ∧ (s.setPhase number save phase).saves[last]? = some found ∧
        found.snapshot = snapshot := by
  rcases sound.holds snapshot held with nothing | ⟨last, found, ends, there, same⟩
  · exact .inl nothing
  · rcases setPhase_lookup phase here rfl there with ⟨after, there', same'⟩
    exact .inr ⟨last, after, ends, there', same'.trans same⟩

end Ended

theorem Sound.write (sound : Sound start s) {number : Nat} {save : Save Id Node} (here : s.saves[number]? = some save)
    (writing : save.phase = .writing) : Sound start { s.setPhase number save .returned with
      file := some save.snapshot
      written := s.written ++ [number] } where
  ordered := by
    refine List.pairwise_append.mpr ⟨sound.ordered, List.pairwise_singleton .., fun other member last final => ?_⟩
    rw [List.mem_singleton.mp final]
    exact sound.behind number ⟨save, here, writing⟩ other member
  known other member := by
    show other < (s.saves.set number _).length
    rw [List.length_set]
    rcases List.mem_append.mp member with earlier | same
    · exact sound.known other earlier
    · rw [List.mem_singleton.mp same]
      exact (List.getElem?_eq_some_iff.mp here).1
  single first _ busy := absurd busy (sound.nobody_after here writing (by decide) first)
  behind first busy := absurd busy (sound.nobody_after here writing (by decide) first)
  written other found there returned := by
    rcases lookup_setPhase there with ⟨same, -⟩ | ⟨-, before⟩
    · exact .inl (List.mem_append_right _ (List.mem_singleton.mpr same))
    · exact (sound.written other found before returned).imp (List.mem_append_left _) id
  failed other found there failed := by
    rcases lookup_setPhase there with ⟨-, rfl⟩ | ⟨-, before⟩
    · cases failed
    · exact sound.failed other found before failed
  readable _ := rfl
  holds snapshot held := by
    obtain ⟨after, there, same⟩ := setPhase_lookup .returned here rfl here
    exact .inr ⟨number, after, List.getLast?_concat, there, same.trans (Option.some.inj held)⟩
  scheduled := sound.scheduled
  clean := sound.clean_setPhase here

theorem Sound.fail (sound : Sound start s) {number : Nat} {save : Save Id Node} (here : s.saves[number]? = some save)
    (writing : save.phase = .writing) (notFlushed : save.flushes = false) (opened : Bool) :
    Sound start { s.setPhase number save .failed with
      file := if opened then none else s.file
      writeFailed := true } where
  ordered := sound.ordered
  known other member := by
    show other < (s.saves.set number _).length
    rw [List.length_set]
    exact sound.known other member
  single first _ busy := absurd busy (sound.nobody_after here writing (by decide) first)
  behind first busy := absurd busy (sound.nobody_after here writing (by decide) first)
  written other found there returned := by
    rcases lookup_setPhase there with ⟨-, rfl⟩ | ⟨-, before⟩
    · cases returned
    · exact (sound.written other found before returned).imp id fun ⟨timers, _⟩ => ⟨timers, rfl⟩
  failed other found there failed := by
    rcases lookup_setPhase there with ⟨-, rfl⟩ | ⟨-, before⟩
    · exact ⟨notFlushed, rfl⟩
    · exact ⟨(sound.failed other found before failed).1, rfl⟩
  readable := nofun
  holds snapshot held := by
    have kept : s.file = some snapshot := by
      cases opened with
      | true => cases held
      | false => exact held
    exact sound.holds_setPhase here kept
  scheduled _ := .inl rfl
  clean := sound.clean_setPhase here

theorem Sound.markDirty (sound : Sound start s) {number : Nat} {save : Save Id Node} (here : s.saves[number]? = some save)
    (failed : save.phase = .failed) : Sound start { s.setPhase number save .returned with dirty := true } where
  ordered := sound.ordered
  known other member := by
    show other < (s.saves.set number _).length
    rw [List.length_set]
    exact sound.known other member
  single first second busy busy' :=
    sound.single first second (writing_setPhase (by decide) busy).2 (writing_setPhase (by decide) busy').2
  behind first busy := sound.behind first (writing_setPhase (by decide) busy).2
  written other found there returned := by
    rcases lookup_setPhase there with ⟨same, rfl⟩ | ⟨-, old⟩
    · exact .inr (sound.failed number save here failed)
    · exact sound.written other found old returned
  failed other found there failed := by
    rcases lookup_setPhase there with ⟨-, rfl⟩ | ⟨-, old⟩
    · cases failed
    · exact sound.failed other found old failed
  readable := sound.readable
  holds _ := sound.holds_setPhase here
  scheduled _ := .inl (sound.failed number save here failed).2
  clean := nofun

variable [DecidableEq Id]

theorem sound_step (sound : Sound start s) {a : SaveAction Id Node} (meets : s.oneAtATime a = true)
    (taken : s.step a = some next) : Sound start next := by
  cases a with
  | mutate mutator =>
    simp only [step] at taken
    split at taken
    · cases taken
      exact sound
    · rename_i memory changed
      cases taken
      exact sound.schedule memory
  | fire timer =>
    simp only [step] at taken
    split at taken
    · rename_i pending
      cases taken
      refine ⟨sound.toOnFile.frame rfl rfl rfl rfl, fun _ => .inr ⟨.fired, ?_, nofun⟩, sound.clean⟩
      exact List.mem_set (List.getElem?_eq_some_iff.mp pending).1 _
    · cases taken
  | callback timer =>
    simp only [step] at taken
    split at taken
    · cases taken
      exact sound.fromTimer _ meets
    · cases taken
  | flushPendingSave =>
    cases taken
    exact sound.flush meets s.memory
  | clearAll =>
    cases taken
    exact sound.flush meets s.memory.cleared
  | write number =>
    simp only [step] at taken
    split at taken
    · rename_i snapshot flushes here
      cases taken
      exact sound.write here rfl
    · cases taken
  | fail number opened =>
    simp only [step] at taken
    split at taken
    · rename_i snapshot flushes here
      cases taken
      have notFlushed : flushes = false := by simpa [oneAtATime, here] using meets
      exact sound.fail here rfl notFlushed opened
    · cases taken
  | markDirty number =>
    simp only [step] at taken
    split at taken
    · rename_i snapshot flushes here
      cases taken
      exact sound.markDirty here rfl
    · cases taken

/-- The saved file never goes back in time. -/
theorem never_back (memory : Memory Id Node)
    (reached : (machine memory).ReachableUnder (fun s a => s.oneAtATime a = true) s) : NeverBack s := by
  have keeps (s : PersistedStore Id Node) (a : SaveAction Id Node) (next : PersistedStore Id Node)
      (sound : Sound memory.snapshot s) (meets : s.oneAtATime a = true) (taken : (machine memory).step s a = some next) :
      Sound memory.snapshot next := sound_step sound meets taken
  exact (Machine.ReachableUnder.invariant (sound_loaded memory) keeps reached).neverBack

/-- Two records of a chat are saved by the timer, and a `/clear` after that is saved by itself. -/
theorem never_back_cleared : ∃ s : PersistedStore String Unit,
    s.written = [0, 1] ∧ s.saves.length = 2 ∧ NeverBack s := by
  have ran : ((machine (.new none)).runUnder oneAtATime (machine (.new none)).init
      [.mutate (.registerNode "m1" "m1"), .mutate (.saveTree "m1" ⟨"m1", .empty⟩), .fire 1, .callback 1, .write 0, .clearAll,
        .write 1]).any
      (fun s : PersistedStore String Unit => decide (s.written = [0, 1] ∧ s.saves.length = 2)) = true := by decide
  obtain ⟨s, here, facts⟩ := (Option.any_eq_true _ _).mp ran
  obtain ⟨written, saves⟩ := of_decide_eq_true facts
  exact ⟨s, written, saves, never_back _ (Machine.reachableUnder_of_runUnder .init here)⟩

/-- The timer's thread has its snapshot when a `/clear` comes in, and writes it after the cleared store. -/
theorem timer_resurrects :
    ¬ ∀ s : PersistedStore String Unit, (machine (.new none)).Reachable s → NeverBack s := by
  intro never
  have ran : ((machine (.new none)).run (machine (.new none)).init
      [.mutate (.saveTree "m1" ⟨"m1", .empty⟩), .fire 0, .callback 0, .clearAll, .write 1, .write 0]).any
      (fun s : PersistedStore String Unit => decide (s.written = [1, 0])) = true := by decide
  obtain ⟨s, here, facts⟩ := (Option.any_eq_true _ _).mp ran
  have ordered := (never s (Machine.reachable_of_run here)).ordered
  rw [of_decide_eq_true facts] at ordered
  exact absurd ordered (by decide)

end PersistedStore

end ClaudeProxy.Sessions
