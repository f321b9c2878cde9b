import ClaudeProxy.Limiter.Worker

namespace ClaudeProxy.Limiter

open Kit

namespace MessagingRateLimiter

variable {Key : Type} {l next : MessagingRateLimiter Key}

/-- The queue has no duplicates and is the key set of the map. -/
structure Compact (l : MessagingRateLimiter Key) : Prop where
  nodup : l.queueList.Nodup
  keys : ∀ k, k ∈ l.queueList ↔ k ∈ l.queueMap.keys

/-- No future was completed twice, and what was completed is no longer pending. -/
structure CompletedOnce (l : MessagingRateLimiter Key) : Prop where
  nodup : l.completed.Nodup
  settled : ∀ future ∈ l.completed, ∀ f, l.futures[future]? = some f → f.state ≠ .pending
  known : ∀ future ∈ l.completed, future < l.futures.length

def Entered (l : MessagingRateLimiter Key) (k : Key) (number : Nat) : Prop :=
  ∃ submission, l.submissions[number]? = some submission ∧ submission.key = k ∧ submission.entered = true

def Owns (l : MessagingRateLimiter Key) (number future : Nat) : Prop :=
  ∃ f, l.futures[future]? = some f ∧ f.owner = number

/-- An entry of the queue holds the last function that came in under its key, and futures of that key. -/
structure EntryNewest (l : MessagingRateLimiter Key) (k : Key) (entry : Entry) : Prop where
  entered : Entered l k entry.func
  last : ∀ number, Entered l k number → number ≤ entry.func
  futures : ∀ future ∈ entry.futures, ∃ number, Owns l number future ∧ Entered l k number

/-- An entry of the worker: nothing newer was run, and its futures are not newer. -/
structure EntryServed (l : MessagingRateLimiter Key) (k : Key) (entry : Entry) : Prop where
  entered : Entered l k entry.func
  futures : ∀ future ∈ entry.futures, ∃ number, Owns l number future ∧ number ≤ entry.func

theorem complete_frame (func : Nat) (ending : Ending) (l : MessagingRateLimiter Key) (future : Nat) :
    (complete func ending l future).queueList = l.queueList ∧ (complete func ending l future).queueMap = l.queueMap ∧
      (complete func ending l future).submissions = l.submissions ∧ (complete func ending l future).ran = l.ran := by
  unfold complete
  split <;> exact ⟨rfl, rfl, rfl, rfl⟩

theorem completeAll_frame (func : Nat) (ending : Ending) (l : MessagingRateLimiter Key) (futures : List Nat) :
    (futures.foldl (complete func ending) l).queueList = l.queueList ∧
      (futures.foldl (complete func ending) l).queueMap = l.queueMap ∧
      (futures.foldl (complete func ending) l).submissions = l.submissions ∧
      (futures.foldl (complete func ending) l).ran = l.ran := by
  induction futures generalizing l with
  | nil => exact ⟨rfl, rfl, rfl, rfl⟩
  | cons future rest ih =>
    obtain ⟨list, map, submissions, ran⟩ := complete_frame func ending l future
    obtain ⟨list', map', submissions', ran'⟩ := ih (complete func ending l future)
    exact ⟨list'.trans list, map'.trans map, submissions'.trans submissions, ran'.trans ran⟩

theorem completedOnce_complete (once : CompletedOnce l) (func : Nat) (ending : Ending) (future : Nat) :
    CompletedOnce (complete func ending l future) := by
  unfold complete
  split
  · rename_i owner found
    have bound : future < l.futures.length := (List.getElem?_eq_some_iff.mp found).1
    have fresh : future ∉ l.completed := fun member => once.settled future member _ found rfl
    refine ⟨?_, ?_, ?_⟩
    · rw [← List.concat_eq_append]
      exact once.nodup.concat fresh
    · intro other member f there
      rw [List.getElem?_set] at there
      split at there
      · cases there
        nofun
      · rename_i different
        rcases List.mem_append.mp member with before | now
        · exact once.settled other before f there
        · exact absurd (List.mem_singleton.mp now).symm different
    · intro other member
      rw [List.length_set]
      rcases List.mem_append.mp member with before | now
      · exact once.known other before
      · rw [List.mem_singleton.mp now]
        exact bound
  · exact once

theorem completedOnce_completeAll (once : CompletedOnce l) (func : Nat) (ending : Ending) (futures : List Nat) :
    CompletedOnce (futures.foldl (complete func ending) l) := by
  induction futures generalizing l with
  | nil => exact once
  | cons future rest ih => exact ih (completedOnce_complete once func ending future)

theorem Entered.of_set {number : Nat} {submission changed : Submission Key}
    (found : l.submissions[number]? = some submission)
    {k : Key} {other : Nat}
    (entered : ∃ s, (l.submissions.set number changed)[other]? = some s ∧ s.key = k ∧ s.entered = true)
    (same : changed.key = submission.key) (mark : changed.entered = submission.entered) : Entered l k other := by
  obtain ⟨s, there, key, true'⟩ := entered
  rw [List.getElem?_set] at there
  split at there
  · rename_i here
    have bound : number < l.submissions.length := (List.getElem?_eq_some_iff.mp found).1
    rw [if_pos bound] at there
    cases there
    exact ⟨submission, here ▸ found, same ▸ key, mark ▸ true'⟩
  · exact ⟨s, there, key, true'⟩

theorem Entered.set {number : Nat} {submission changed : Submission Key} (found : l.submissions[number]? = some submission)
    {k : Key} {other : Nat} (entered : Entered l k other) (same : changed.key = submission.key)
    (mark : submission.entered = true → changed.entered = true) :
    ∃ s, (l.submissions.set number changed)[other]? = some s ∧ s.key = k ∧ s.entered = true := by
  obtain ⟨s, there, key, true'⟩ := entered
  have bound : number < l.submissions.length := (List.getElem?_eq_some_iff.mp found).1
  by_cases here : number = other
  · subst here
    rw [found] at there
    cases there
    exact ⟨changed, List.getElem?_set_self bound, same.trans key, mark true'⟩
  · exact ⟨s, (List.getElem?_set_ne here).trans there, key, true'⟩

structure Alike (l next : MessagingRateLimiter Key) : Prop where
  entered : ∀ k number, Entered next k number ↔ Entered l k number
  owns : ∀ number future, Owns l number future → Owns next number future

theorem Alike.of_same (submissions : next.submissions = l.submissions) (futures : next.futures = l.futures) :
    Alike l next :=
  ⟨fun k number => by rw [Entered, submissions, Entered], fun number future own => by rwa [Owns, futures]⟩

theorem EntryNewest.alike (alike : Alike l next) {k : Key} {entry : Entry} (newest : EntryNewest l k entry) :
    EntryNewest next k entry := by
  refine ⟨(alike.entered ..).mpr newest.entered, fun number entered => ?_, fun future member => ?_⟩
  · exact newest.last number ((alike.entered ..).mp entered)
  · obtain ⟨number, owns, entered⟩ := newest.futures future member
    exact ⟨number, alike.owns _ _ owns, (alike.entered ..).mpr entered⟩

theorem EntryServed.grow {k : Key} {entry : Entry} (served : EntryServed l k entry)
    (entered : ∀ k number, Entered l k number → Entered next k number)
    (owns : ∀ number future, Owns l number future → Owns next number future) : EntryServed next k entry := by
  refine ⟨entered _ _ served.entered, fun future member => ?_⟩
  obtain ⟨number, own, bound⟩ := served.futures future member
  exact ⟨number, owns _ _ own, bound⟩

theorem EntryServed.alike (alike : Alike l next) {k : Key} {entry : Entry} (served : EntryServed l k entry) :
    EntryServed next k entry :=
  served.grow (fun k number => (alike.entered k number).mpr) alike.owns

section Settled

variable {futures : List Future} {future other : Nat}

theorem lookup_settled {settled f : Future} (there : (futures.set future settled)[other]? = some f) :
    future = other ∧ f = settled ∨ future ≠ other ∧ futures[other]? = some f := by
  rw [List.getElem?_set] at there
  split at there
  · rename_i here
    split at there
    · cases there
      exact .inl ⟨here, rfl⟩
    · cases there
  · rename_i different
    exact .inr ⟨different, there⟩

theorem owns_settled {number owner : Nat} {before after : FutureState} (found : futures[future]? = some ⟨owner, before⟩)
    (own : ∃ f, futures[other]? = some f ∧ f.owner = number) :
    ∃ f, (futures.set future ⟨owner, after⟩)[other]? = some f ∧ f.owner = number := by
  rcases own with ⟨f, there, same⟩
  by_cases here : future = other
  · subst here
    rw [found] at there
    cases there
    exact ⟨_, List.getElem?_set_self (List.getElem?_eq_some_iff.mp found).1, same⟩
  · exact ⟨f, (List.getElem?_set_ne here).trans there, same⟩

end Settled

/-- Futures that are completed keep their owners; those of the entry are not newer than its function. -/
theorem complete_outcomes {func : Nat} {ending : Ending} {future : Nat}
    (owned : ∃ number, Owns l number future ∧ number ≤ func)
    (outcomes : ∀ (future : Nat) (f : Future) func ending, l.futures[future]? = some f → f.state = .done func ending →
      f.owner ≤ func) :
    (∀ number other, Owns l number other → Owns (complete func ending l future) number other) ∧
      ∀ (other : Nat) (f : Future) func' ending', (complete func ending l future).futures[other]? = some f →
        f.state = .done func' ending' → f.owner ≤ func' := by
  unfold complete
  split
  · rename_i owner found
    constructor
    · exact fun number other own => owns_settled found own
    · intro other f func' ending' there done
      rcases lookup_settled there with ⟨rfl, rfl⟩ | ⟨-, before⟩
      · obtain ⟨number, ⟨f', there', rfl⟩, notNewer⟩ := owned
        rw [found] at there'
        cases there'
        cases done
        exact notNewer
      · exact outcomes other f func' ending' before done
  · exact ⟨fun _ _ => id, outcomes⟩

theorem completeAll_outcomes {func : Nat} {ending : Ending} {futures : List Nat}
    (owned : ∀ future ∈ futures, ∃ number, Owns l number future ∧ number ≤ func)
    (outcomes : ∀ (future : Nat) (f : Future) func ending, l.futures[future]? = some f → f.state = .done func ending →
      f.owner ≤ func) :
    (∀ number other, Owns l number other → Owns (futures.foldl (complete func ending) l) number other) ∧
      ∀ (other : Nat) (f : Future) func' ending', (futures.foldl (complete func ending) l).futures[other]? = some f →
        f.state = .done func' ending' → f.owner ≤ func' := by
  induction futures generalizing l with
  | nil => exact ⟨fun _ _ => id, outcomes⟩
  | cons future rest ih =>
    obtain ⟨owns, outcomes'⟩ := complete_outcomes (owned future List.mem_cons_self) outcomes
    obtain ⟨owns', outcomes''⟩ := ih (fun other member => by
      obtain ⟨number, own, bound⟩ := owned other (List.mem_cons_of_mem _ member)
      exact ⟨number, owns _ _ own, bound⟩) outcomes'
    exact ⟨fun number other own => owns' _ _ (owns _ _ own), outcomes''⟩

theorem alike_set {number : Nat} {submission changed : Submission Key} (found : l.submissions[number]? = some submission)
    (key : changed.key = submission.key) (mark : changed.entered = submission.entered) (k : Key) (other : Nat) :
    Entered { l with submissions := l.submissions.set number changed } k other ↔ Entered l k other :=
  ⟨fun entered => Entered.of_set found entered key mark, fun entered => entered.set found key fun true' => mark.trans true'⟩

theorem cancelFuture_outcomes (future : Nat)
    (outcomes : ∀ (future : Nat) (f : Future) func ending, l.futures[future]? = some f → f.state = .done func ending →
      f.owner ≤ func) :
    (∀ number other, Owns l number other → Owns { l with futures := cancelFuture l.futures future } number other) ∧
      ∀ (other : Nat) (f : Future) func ending, (cancelFuture l.futures future)[other]? = some f →
        f.state = .done func ending → f.owner ≤ func := by
  have alike : (∀ number other, Owns l number other →
    Owns { l with futures := cancelFuture l.futures future } number other) ∧
      ∀ (other : Nat) (f : Future), (cancelFuture l.futures future)[other]? = some f → l.futures[other]? = some f ∨
        f.state = .cancelled := by
    unfold cancelFuture
    split
    · rename_i owner found
      constructor
      · exact fun number other own => owns_settled found own
      · intro other f there
        rcases lookup_settled there with ⟨-, rfl⟩ | ⟨-, before⟩
        · exact .inr rfl
        · exact .inl before
    · exact ⟨fun _ _ => id, fun _ _ => .inl⟩
  refine ⟨alike.1, fun other f func ending there done => ?_⟩
  rcases alike.2 other f there with before | cancelled
  · exact outcomes other f func ending before done
  · rw [cancelled] at done
    cases done

variable [DecidableEq Key]

structure Newest (l : MessagingRateLimiter Key) : Prop where
  ran : ∀ k number, (k, number) ∈ l.ran → Entered l k number
  order : l.ran.Pairwise fun earlier later => earlier.1 = later.1 → earlier.2 ≤ later.2
  queued : ∀ k entry, l.queueMap.get? k = some entry → EntryNewest l k entry
  taken : ∀ k entry, l.worker = .taken k entry → EntryServed l k entry ∧ ∀ number, (k, number) ∈ l.ran → number ≤ entry.func
  running : ∀ k entry, l.worker = .running k entry → EntryServed l k entry
  outcomes : ∀ (future : Nat) (f : Future) func ending, l.futures[future]? = some f → f.state = .done func ending →
    f.owner ≤ func

/-- A task comes to its `enqueue` only while no later submission of its key has been put into the queue. -/
def inOrder (l : MessagingRateLimiter Key) : Action Key → Bool
  | .enter number =>
    match l.submissions[number]? with
    | none => true
    | some submission => (l.submissions.drop (number + 1)).all fun later => !(later.entered && later.key = submission.key)
  | _ => true

/-- What a step does, guards included. -/
inductive Stepped (l : MessagingRateLimiter Key) : Action Key → MessagingRateLimiter Key → Prop where
  | enqueue (k : Key) : Stepped l (.enqueue k)
      ((l.submit k false).enterQueue l.submissions.length ⟨k, false, 0, .created, false⟩)
  | fireAndForget (k : Key) : Stepped l (.fireAndForget k) (l.submit k true)
  | enter (number : Nat) (submission : Submission Key) (found : l.submissions[number]? = some submission) :
      Stepped l (.enter number) (l.enterQueue number submission)
  | take (k : Key) (rest : List Key) (queue : l.queueList = k :: rest) : Stepped l .take (l.takeFirst k rest)
  | start (k : Key) (entry : Entry) (taken : l.worker = .taken k entry) :
      Stepped l .start { l with worker := .running k entry, ran := l.ran ++ [(k, entry.func)] }
  | finish (ending : Ending) (k : Key) (entry : Entry) (running : l.worker = .running k entry) :
      Stepped l (.finish ending) { entry.futures.foldl (complete entry.func ending) l with worker := .idle }
  | resume (number : Nat) (submission : Submission Key) (state : FutureState)
      (found : l.submissions[number]? = some submission) :
      Stepped l (.resume number) { l with submissions := l.submissions.set number (afterFuture submission state) }
  | cancel (number : Nat) (submission : Submission Key) (futures : List Future)
      (found : l.submissions[number]? = some submission)
      (cancelled : futures = l.futures ∨ ∃ future, futures = cancelFuture l.futures future) :
      Stepped l (.cancel number)
        { l with submissions := l.submissions.set number { submission with phase := .over }, futures := futures }
  | stop : Stepped l .stop { l with worker := .stopped }

theorem stepped_of_step {a : Action Key} (taken : l.step a = some next) : Stepped l a next := by
  cases a with
  | enqueue k =>
    cases taken
    exact .enqueue k
  | fireAndForget k =>
    cases taken
    exact .fireAndForget k
  | enter number =>
    simp only [step] at taken
    split at taken
    · cases taken
    · rename_i submission found
      split at taken
      · cases taken
        exact .enter number submission found
      · cases taken
  | take =>
    simp only [step] at taken
    split at taken
    · rename_i k rest _ queue
      cases taken
      exact .take k rest queue
    · cases taken
  | start =>
    simp only [step] at taken
    split at taken
    · rename_i k entry worker
      cases taken
      exact .start k entry worker
    · cases taken
  | finish ending =>
    simp only [step] at taken
    split at taken
    · rename_i k entry worker
      cases taken
      exact .finish ending k entry worker
    · cases taken
  | resume number =>
    simp only [step] at taken
    split at taken
    · cases taken
    · rename_i submission found
      split at taken
      · split at taken
        · cases taken
        · cases taken
        · cases taken
          exact .resume number submission _ found
      · cases taken
  | cancel number =>
    simp only [step] at taken
    split at taken
    · cases taken
    · rename_i submission found
      cases taken
      refine .cancel number submission _ found ?_
      split
      · exact .inr ⟨_, rfl⟩
      · exact .inl rfl
  | stop =>
    cases taken
    exact .stop

theorem compact_enqueue (compact : Compact l) (func : Nat) (futures : List Nat) (k : Key) (front : Bool) :
    Compact (l.enqueueInternalMulti func futures k front) := by
  unfold enqueueInternalMulti
  cases found : l.queueMap.get? k with
  | some old =>
    have known : k ∈ l.queueMap.keys := (Dict.mem_keys_iff ..).mpr ⟨old, found⟩
    refine ⟨compact.nodup, fun key => ?_⟩
    rw [Dict.mem_keys_set]
    constructor
    · exact fun member => .inr ((compact.keys key).mp member)
    · rintro (rfl | member)
      · exact (compact.keys _).mpr known
      · exact (compact.keys key).mpr member
  | none =>
    have fresh : k ∉ l.queueList := by
      rw [compact.keys]
      exact (Dict.get?_eq_none_iff ..).mp found
    cases front with
    | true =>
      refine ⟨List.nodup_cons.mpr ⟨fresh, compact.nodup⟩, fun key => ?_⟩
      rw [Dict.mem_keys_set, ← compact.keys]
      exact List.mem_cons
    | false =>
      refine ⟨?_, fun key => ?_⟩
      · simp only [Bool.false_eq_true, if_false]
        rw [← List.concat_eq_append]
        exact compact.nodup.concat fresh
      · rw [Dict.mem_keys_set, ← compact.keys]
        simp [or_comm]

theorem compact_take (compact : Compact l) {k : Key} {rest : List Key} (queue : l.queueList = k :: rest) :
    Compact (l.takeFirst k rest) := by
  have nodup := compact.nodup
  rw [queue] at nodup
  obtain ⟨fresh, nodup⟩ := List.nodup_cons.mp nodup
  have known : k ∈ l.queueMap.keys := (compact.keys k).mp (queue ▸ List.mem_cons_self)
  obtain ⟨entry, found⟩ := (Dict.mem_keys_iff ..).mp known
  unfold takeFirst
  simp only [found]
  refine ⟨nodup, fun key => ?_⟩
  rw [Dict.mem_keys_erase, ← compact.keys, queue, List.mem_cons]
  constructor
  · exact fun member => ⟨.inr member, fun same => fresh (same ▸ member)⟩
  · rintro ⟨rfl | member, other⟩
    · exact absurd rfl other
    · exact member

theorem compact_step {a : Action Key} (compact : Compact l) (taken : l.step a = some next) : Compact next := by
  have entered (l : MessagingRateLimiter Key) (compact : Compact l) (number : Nat) (submission : Submission Key) :
      Compact (l.enterQueue number submission) := by
    have created : Compact (l.createFuture number submission) := ⟨compact.nodup, compact.keys⟩
    exact compact_enqueue created ..
  cases stepped_of_step taken with
  | enqueue k =>
    have submitted : Compact (l.submit k false) := ⟨compact.nodup, compact.keys⟩
    exact entered _ submitted _ _
  | enter number submission found => exact entered _ compact number submission
  | take k rest queue => exact compact_take compact queue
  | finish ending k entry running =>
    obtain ⟨list, map, _⟩ := completeAll_frame entry.func ending l entry.futures
    refine ⟨?_, fun key => ?_⟩
    · rw [list]
      exact compact.nodup
    · rw [list, map]
      exact compact.keys key
  | fireAndForget k => exact ⟨compact.nodup, compact.keys⟩
  | start k entry worker => exact ⟨compact.nodup, compact.keys⟩
  | resume number submission state found => exact ⟨compact.nodup, compact.keys⟩
  | cancel number submission futures found cancelled => exact ⟨compact.nodup, compact.keys⟩
  | stop => exact ⟨compact.nodup, compact.keys⟩

theorem completedOnce_enterQueue (once : CompletedOnce l) (number : Nat) (submission : Submission Key) :
    CompletedOnce (l.enterQueue number submission) := by
  have queued (l : MessagingRateLimiter Key) (once : CompletedOnce l) (func : Nat) (futures : List Nat) (k : Key) :
      CompletedOnce (l.enqueueInternalMulti func futures k false) := by
    unfold enqueueInternalMulti
    split <;> exact ⟨once.nodup, once.settled, once.known⟩
  have created : CompletedOnce (l.createFuture number submission) := by
    refine ⟨once.nodup, ?_, ?_⟩
    · intro future member f there
      have before : l.futures[future]? = some f := by
        rw [← there]
        exact (List.getElem?_append_left (once.known future member)).symm
      exact once.settled future member f before
    · intro future member
      have bound := once.known future member
      simp only [createFuture, List.length_append, List.length_singleton]
      omega
  exact queued _ created ..

theorem completedOnce_step {a : Action Key} (once : CompletedOnce l) (taken : l.step a = some next) :
    CompletedOnce next := by
  cases stepped_of_step taken with
  | enqueue k =>
    have submitted : CompletedOnce (l.submit k false) := ⟨once.nodup, once.settled, once.known⟩
    exact completedOnce_enterQueue submitted _ _
  | enter number submission found => exact completedOnce_enterQueue once number submission
  | take k rest queue =>
    unfold takeFirst
    split <;> exact ⟨once.nodup, once.settled, once.known⟩
  | finish ending k entry running =>
    have all := completedOnce_completeAll once entry.func ending entry.futures
    exact ⟨all.nodup, all.settled, all.known⟩
  | cancel number submission futures found cancelled =>
    rcases cancelled with rfl | ⟨future, rfl⟩
    · exact ⟨once.nodup, once.settled, once.known⟩
    · unfold cancelFuture
      split
      · refine ⟨once.nodup, ?_, fun other member => ?_⟩
        · intro other member f there
          rw [List.getElem?_set] at there
          split at there
          · split at there
            · cases there
              nofun
            · cases there
          · exact once.settled other member f there
        · rw [List.length_set]
          exact once.known other member
      · exact ⟨once.nodup, once.settled, once.known⟩
  | fireAndForget k => exact ⟨once.nodup, once.settled, once.known⟩
  | start k entry worker => exact ⟨once.nodup, once.settled, once.known⟩
  | resume number submission state found => exact ⟨once.nodup, once.settled, once.known⟩
  | stop => exact ⟨once.nodup, once.settled, once.known⟩

/-- Queue and futures are in order in every reachable state, whatever the order of the steps. -/
theorem compact_reachable {ok : MessagingRateLimiter Key → Action Key → Prop}
    (reached : machine.ReachableUnder ok l) : Compact l ∧ CompletedOnce l := by
  have start : Compact (new : MessagingRateLimiter Key) ∧ CompletedOnce (new : MessagingRateLimiter Key) :=
    ⟨⟨List.nodup_nil, fun _ => Iff.rfl⟩, ⟨List.nodup_nil, nofun, nofun⟩⟩
  have keeps (s : MessagingRateLimiter Key) (a : Action Key) (next : MessagingRateLimiter Key)
      (before : Compact s ∧ CompletedOnce s) (_ : ok s a) (taken : s.step a = some next) :
      Compact next ∧ CompletedOnce next :=
    ⟨compact_step before.1 taken, completedOnce_step before.2 taken⟩
  exact @Machine.ReachableUnder.invariant _ _ machine ok (fun s => Compact s ∧ CompletedOnce s) start keeps l reached

theorem Newest.alike (newest : Newest l) (alike : Alike l next) (worker : next.worker = l.worker)
    (queueMap : next.queueMap = l.queueMap) (ran : next.ran = l.ran)
    (outcomes : ∀ (future : Nat) (f : Future) func ending, next.futures[future]? = some f → f.state = .done func ending →
      f.owner ≤ func) : Newest next := by
  refine ⟨?_, ?_, ?_, ?_, ?_, outcomes⟩
  · intro k number member
    rw [ran] at member
    exact (alike.entered ..).mpr (newest.ran k number member)
  · rw [ran]
    exact newest.order
  · intro k entry found
    rw [queueMap] at found
    exact (newest.queued k entry found).alike alike
  · intro k entry taken
    rw [worker] at taken
    rw [ran]
    obtain ⟨served, bound⟩ := newest.taken k entry taken
    exact ⟨served.alike alike, bound⟩
  · intro k entry running
    rw [worker] at running
    exact (newest.running k entry running).alike alike

theorem newest_submit (newest : Newest l) (k : Key) (forgets : Bool) : Newest (l.submit k forgets) := by
  refine newest.alike ⟨fun key number => ?_, fun _ _ => id⟩ rfl rfl rfl newest.outcomes
  constructor
  · rintro ⟨s, there, same, true'⟩
    by_cases bound : number < l.submissions.length
    · exact ⟨s, (List.getElem?_append_left bound).symm.trans there, same, true'⟩
    · have last := List.mem_of_getElem? ((List.getElem?_append_right (Nat.not_lt.mp bound)).symm.trans there)
      rw [List.mem_singleton.mp last] at true'
      cases true'
  · rintro ⟨s, there, same, true'⟩
    have bound := (List.getElem?_eq_some_iff.mp there).1
    exact ⟨s, (List.getElem?_append_left bound).trans there, same, true'⟩

/-- A submission enters that is not older than what entered under its key. -/
theorem newest_enterQueue (newest : Newest l) {number : Nat} {submission : Submission Key}
    (found : l.submissions[number]? = some submission)
    (last : ∀ other, Entered l submission.key other → other ≤ number) : Newest (l.enterQueue number submission) := by
  let next := l.enterQueue number submission
  have frame : next.submissions = (l.createFuture number submission).submissions ∧
      next.futures = l.futures ++ [⟨number, .pending⟩] ∧ next.worker = l.worker ∧ next.ran = l.ran ∧
      next.queueMap = l.queueMap.set submission.key
        ⟨number, ((l.queueMap.get? submission.key).map (·.futures)).getD [] ++ [l.futures.length]⟩ := by
    simp only [next, enterQueue, enqueueInternalMulti]
    have same : (l.createFuture number submission).queueMap = l.queueMap := rfl
    rw [same]
    cases l.queueMap.get? submission.key <;> exact ⟨rfl, rfl, rfl, rfl, rfl⟩
  obtain ⟨submissions, futures, worker, ran, queueMap⟩ := frame
  have bound : number < l.submissions.length := (List.getElem?_eq_some_iff.mp found).1
  have grow (k : Key) (other : Nat) (entered : Entered l k other) : Entered next k other := by
    unfold Entered
    rw [submissions]
    exact entered.set found rfl fun _ => rfl
  have back (k : Key) (other : Nat) (entered : Entered next k other) :
      Entered l k other ∨ other = number ∧ k = submission.key := by
    obtain ⟨s, there, key, true'⟩ := entered
    rw [submissions, createFuture, List.getElem?_set] at there
    split at there
    · rename_i here
      cases there
      exact .inr ⟨here.symm, key.symm⟩
    · exact .inl ⟨s, there, key, true'⟩
  have now : Entered next submission.key number := by
    unfold Entered
    rw [submissions]
    exact ⟨_, List.getElem?_set_self bound, rfl, rfl⟩
  have owns (owner future : Nat) (own : Owns l owner future) : Owns next owner future := by
    obtain ⟨f, there, same⟩ := own
    refine ⟨f, ?_, same⟩
    rw [futures, List.getElem?_append_left (List.getElem?_eq_some_iff.mp there).1]
    exact there
  have created : Owns next number l.futures.length := ⟨⟨number, .pending⟩, by rw [futures]; simp, rfl⟩
  refine ⟨?_, ?_, ?_, ?_, ?_, ?_⟩
  · intro k other member
    rw [ran] at member
    exact grow k other (newest.ran k other member)
  · rw [ran]
    exact newest.order
  · intro k entry there
    rw [queueMap, Dict.get?_set] at there
    split at there
    · rename_i same
      subst same
      cases there
      refine ⟨now, fun other entered => ?_, fun future member => ?_⟩
      · rcases back _ _ entered with before | ⟨rfl, _⟩
        · exact last other before
        · exact Nat.le_refl _
      · rcases List.mem_append.mp member with old | new
        · cases queued : l.queueMap.get? submission.key with
          | none => simp [queued] at old
          | some before =>
            rw [queued] at old
            obtain ⟨owner, own, entered⟩ := (newest.queued _ before queued).futures future old
            exact ⟨owner, owns _ _ own, grow _ _ entered⟩
        · rw [List.mem_singleton.mp new]
          exact ⟨number, created, now⟩
    · rename_i other
      have before := newest.queued k entry there
      refine ⟨grow _ _ before.entered, fun n entered => ?_, fun future member => ?_⟩
      · rcases back _ _ entered with old | ⟨_, same⟩
        · exact before.last n old
        · exact absurd same other
      · obtain ⟨owner, own, entered⟩ := before.futures future member
        exact ⟨owner, owns _ _ own, grow _ _ entered⟩
  · intro k entry taken
    rw [worker] at taken
    rw [ran]
    obtain ⟨served, newer⟩ := newest.taken k entry taken
    exact ⟨served.grow grow owns, newer⟩
  · intro k entry running
    rw [worker] at running
    exact (newest.running k entry running).grow grow owns
  · intro future f func ending there done
    rw [futures] at there
    by_cases inside : future < l.futures.length
    · exact newest.outcomes future f func ending ((List.getElem?_append_left inside).symm.trans there) done
    · have fresh := List.mem_of_getElem? ((List.getElem?_append_right (Nat.not_lt.mp inside)).symm.trans there)
      rw [List.mem_singleton.mp fresh] at done
      cases done

theorem newest_take (newest : Newest l) (k : Key) (rest : List Key) : Newest (l.takeFirst k rest) := by
  cases found : l.queueMap.get? k with
  | none =>
    have same : l.takeFirst k rest = { l with queueList := rest } := by rw [takeFirst, found]
    rw [same]
    exact newest.alike (.of_same rfl rfl) rfl rfl rfl newest.outcomes
  | some entry =>
    have same : l.takeFirst k rest =
        { l with queueList := rest, queueMap := l.queueMap.erase k, worker := .taken k entry } := by rw [takeFirst, found]
    have alike : Alike l { l with queueList := rest, queueMap := l.queueMap.erase k, worker := .taken k entry } :=
      .of_same rfl rfl
    rw [same]
    refine ⟨newest.ran, newest.order, ?_, ?_, nofun, newest.outcomes⟩
    · intro key other there
      rw [Dict.get?_erase] at there
      split at there
      · cases there
      · exact (newest.queued key other there).alike alike
    · rintro _ _ ⟨⟩
      have before := newest.queued k entry found
      refine ⟨⟨before.entered, fun future member => ?_⟩,
        fun number member => before.last number (newest.ran k number member)⟩
      obtain ⟨number, own, entered⟩ := before.futures future member
      exact ⟨number, own, before.last number entered⟩

theorem newest_start (newest : Newest l) {k : Key} {entry : Entry} (taken : l.worker = .taken k entry) :
    Newest { l with worker := .running k entry, ran := l.ran ++ [(k, entry.func)] } := by
  obtain ⟨served, newer⟩ := newest.taken k entry taken
  have alike : Alike l { l with worker := .running k entry, ran := l.ran ++ [(k, entry.func)] } := .of_same rfl rfl
  refine ⟨?_, ?_, fun key other there => (newest.queued key other there).alike alike, nofun, ?_, newest.outcomes⟩
  · intro key number member
    rcases List.mem_append.mp member with before | now
    · exact newest.ran key number before
    · cases List.mem_singleton.mp now
      exact served.entered
  · refine List.pairwise_append.mpr ⟨newest.order, List.pairwise_singleton .., ?_⟩
    rintro ⟨key, number⟩ before last now same
    rw [List.mem_singleton.mp now] at same ⊢
    cases same
    exact newer number before
  · rintro _ _ ⟨⟩
    exact served.alike alike

theorem newest_finish (newest : Newest l) {k : Key} {entry : Entry} (running : l.worker = .running k entry)
    (ending : Ending) : Newest { entry.futures.foldl (complete entry.func ending) l with worker := .idle } := by
  have served := newest.running k entry running
  obtain ⟨_, map, submissions, ran⟩ := completeAll_frame entry.func ending l entry.futures
  obtain ⟨owns, outcomes⟩ := completeAll_outcomes served.futures newest.outcomes
  have alike : Alike l { entry.futures.foldl (complete entry.func ending) l with worker := .idle } :=
    ⟨fun key number => by rw [Entered, submissions, Entered], owns⟩
  refine ⟨?_, ?_, ?_, nofun, nofun, outcomes⟩
  · intro key number member
    exact (alike.entered key number).mpr (newest.ran key number (ran ▸ member))
  · dsimp only
    rw [ran]
    exact newest.order
  · intro key other there
    exact (newest.queued key other (map ▸ there)).alike alike

theorem newest_step {a : Action Key} (newest : Newest l) (ordered : inOrder l a = true) (taken : l.step a = some next) :
    Newest next := by
  cases stepped_of_step taken with
  | enqueue k =>
    refine newest_enterQueue (newest_submit newest k false) ?_ fun other entered => ?_
    · exact List.getElem?_concat_length
    · obtain ⟨s, there, _⟩ := entered
      have bound := (List.getElem?_eq_some_iff.mp there).1
      simp only [submit, List.length_append, List.length_singleton] at bound
      omega
  | fireAndForget k => exact newest_submit newest k true
  | enter number submission found =>
    refine newest_enterQueue newest found fun other entered => ?_
    obtain ⟨later, there, key, true'⟩ := entered
    by_contra newer
    have member : later ∈ l.submissions.drop (number + 1) := by
      refine List.mem_of_getElem? (i := other - (number + 1)) ?_
      rw [List.getElem?_drop, Nat.add_sub_cancel' (by omega)]
      exact there
    simp only [inOrder, found, List.all_eq_true] at ordered
    have meets := ordered later member
    simp [key, true'] at meets
  | take k rest queue => exact newest_take newest k rest
  | start k entry worker => exact newest_start newest worker
  | finish ending k entry running => exact newest_finish newest running ending
  | resume number submission state found =>
    have same : (afterFuture submission state).key = submission.key ∧
        (afterFuture submission state).entered = submission.entered := by
      unfold afterFuture
      split
      · split <;> exact ⟨rfl, rfl⟩
      · exact ⟨rfl, rfl⟩
    exact newest.alike ⟨alike_set found same.1 same.2, fun _ _ => id⟩ rfl rfl rfl newest.outcomes
  | cancel number submission futures found cancelled =>
    rcases cancelled with rfl | ⟨future, rfl⟩
    · exact newest.alike ⟨alike_set found rfl rfl, fun _ _ => id⟩ rfl rfl rfl newest.outcomes
    · obtain ⟨owns, outcomes⟩ := cancelFuture_outcomes future newest.outcomes
      exact newest.alike ⟨alike_set found rfl rfl, owns⟩ rfl rfl rfl outcomes
  | stop =>
    have alike : Alike l { l with worker := .stopped } := .of_same rfl rfl
    exact ⟨newest.ran, newest.order, fun k entry there => (newest.queued k entry there).alike alike, nofun, nofun,
      newest.outcomes⟩

/-- The queue is compact, runs under one key are in the order of submission, and every future is completed
    at most once, by a function that was not submitted before it. -/
structure KeepsNewest (l : MessagingRateLimiter Key) : Prop where
  queue : l.queueList.Nodup ∧ ∀ k, k ∈ l.queueList ↔ k ∈ l.queueMap.keys
  runs : l.ran.Pairwise fun earlier later => earlier.1 = later.1 → earlier.2 ≤ later.2
  once : l.completed.Nodup
  outcomes : ∀ (future : Nat) (f : Future) func ending, l.futures[future]? = some f → f.state = .done func ending →
    f.owner ≤ func

/-- As long as no task comes to its `enqueue` after a later submission of its key. -/
theorem keepsNewest (reached : machine.ReachableUnder (fun l a => inOrder l a = true) l) : KeepsNewest l := by
  have start : Newest (new : MessagingRateLimiter Key) := ⟨nofun, List.Pairwise.nil, nofun, nofun, nofun, nofun⟩
  have newest := Machine.ReachableUnder.invariant start (fun _ _ _ before ordered taken => newest_step before ordered taken)
    reached
  obtain ⟨compact, once⟩ := compact_reachable reached
  exact ⟨⟨compact.nodup, compact.keys⟩, newest.order, once.nodup, newest.outcomes⟩

/-- An edit that fails for a moment and is repeated before the next one comes. -/
theorem keepsNewest_retried : ∃ l : MessagingRateLimiter String,
    l.ran = [("edit", 0), ("edit", 0), ("edit", 1)] ∧ KeepsNewest l := by
  have ran : (machine.runUnder inOrder machine.init
      [.fireAndForget "edit", .enter 0, .take, .start, .finish (.exception "timed out: timeout".toList), .resume 0,
        .enter 0, .take, .start, .finish .result, .resume 0, .enqueue "edit", .take, .start]).any
      (fun l => decide (l.ran = [("edit", 0), ("edit", 0), ("edit", 1)])) = true := by decide
  obtain ⟨l, here, facts⟩ := (Option.any_eq_true _ _).mp ran
  exact ⟨l, of_decide_eq_true facts, keepsNewest (Machine.reachableUnder_of_runUnder .init here)⟩

/-- The second edit overtakes the first one, which then is repeated over it. -/
theorem retry_overwrites_newer :
    ¬ ∀ l : MessagingRateLimiter String, machine.Reachable l → KeepsNewest l := by
  intro keeps
  have ran : (machine.run machine.init
      [.fireAndForget "edit", .enter 0, .take, .start, .finish (.exception "timed out: timeout".toList), .resume 0,
        .fireAndForget "edit", .enter 1, .take, .start, .finish .result, .enter 0, .take, .start]).any
      (fun l => decide (l.ran = [("edit", 0), ("edit", 1), ("edit", 0)])) = true := by decide
  obtain ⟨l, here, facts⟩ := (Option.any_eq_true _ _).mp ran
  have runs := (keeps l (Machine.reachable_of_run here)).runs
  rw [of_decide_eq_true facts] at runs
  simp at runs

end MessagingRateLimiter

end ClaudeProxy.Limiter
