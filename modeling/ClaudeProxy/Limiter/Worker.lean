import ClaudeProxy.Kit.Dict
import ClaudeProxy.Kit.Machine
import ClaudeProxy.Kit.Search

namespace ClaudeProxy.Limiter

open Kit

/-- How a submitted function ends: with a result, or with an exception of the given `str(e).lower()`. -/
inductive Ending where
  | result
  | exception (errorMsg : List Char)
deriving DecidableEq

def transientWords : List (List Char) := ["connect".toList, "timeout".toList, "broken".toList]

/-- `any(x in error_msg for x in ["connect", "timeout", "broken"])` -/
def isTransient (errorMsg : List Char) : Bool := transientWords.any fun x => (find x errorMsg).isSome

def maxRetries : Nat := 2

/-- Submissions are numbered in the order of the calls; a function goes by the number of its submission. -/
inductive FutureState where
  | pending
  | cancelled
  | done (func : Nat) (ending : Ending)
deriving DecidableEq

structure Future where
  owner : Nat
  state : FutureState
deriving DecidableEq

/-- A value of `_queue_map`. -/
structure Entry where
  func : Nat
  futures : List Nat
deriving DecidableEq

inductive Phase where
  /-- The task of `fire_and_forget` has not run yet. -/
  | created
  | waiting (future : Nat)
  | sleeping
  | over
deriving DecidableEq

structure Submission (Key : Type) where
  key : Key
  /-- Made by `fire_and_forget`, which retries. -/
  forgets : Bool
  attempt : Nat
  phase : Phase
  entered : Bool
deriving DecidableEq

/-- The worker between two lock sections; an entry that was taken may have to wait for its turn. -/
inductive WorkerState (Key : Type) where
  | idle
  | taken (key : Key) (entry : Entry)
  | running (key : Key) (entry : Entry)
  | stopped
deriving DecidableEq

/-- The limiter, the tasks that use it, and the history: which functions were run under which key, and
    which futures the worker completed. -/
structure MessagingRateLimiter (Key : Type) where
  queueList : List Key
  queueMap : Dict Key Entry
  worker : WorkerState Key
  submissions : List (Submission Key)
  futures : List Future
  ran : List (Key × Nat)
  completed : List Nat

inductive Action (Key : Type) where
  | enqueue (dedupKey : Key)
  | fireAndForget (dedupKey : Key)
  /-- A task of `fire_and_forget` comes to its next `enqueue`. -/
  | enter (number : Nat)
  | take
  | start
  | finish (ending : Ending)
  | resume (number : Nat)
  | cancel (number : Nat)
  | stop

namespace MessagingRateLimiter

variable {Key : Type} [DecidableEq Key]

def new : MessagingRateLimiter Key := ⟨[], .empty, .idle, [], [], [], []⟩

def enqueueInternalMulti (l : MessagingRateLimiter Key) (func : Nat) (futures : List Nat) (dedupKey : Key)
    (front : Bool) : MessagingRateLimiter Key :=
  match l.queueMap.get? dedupKey with
  | some old => { l with queueMap := l.queueMap.set dedupKey ⟨func, old.futures ++ futures⟩ }
  | none => { l with
      queueMap := l.queueMap.set dedupKey ⟨func, futures⟩
      queueList := if front then dedupKey :: l.queueList else l.queueList ++ [dedupKey] }

def createFuture (l : MessagingRateLimiter Key) (number : Nat) (submission : Submission Key) : MessagingRateLimiter Key :=
  { l with
    futures := l.futures ++ [⟨number, .pending⟩]
    submissions := l.submissions.set number { submission with phase := .waiting l.futures.length, entered := true } }

/-- `enqueue` of a submission up to `await future`; the lock is free whenever a task runs. -/
def enterQueue (l : MessagingRateLimiter Key) (number : Nat) (submission : Submission Key) : MessagingRateLimiter Key :=
  (l.createFuture number submission).enqueueInternalMulti number [l.futures.length] submission.key false

def submit (l : MessagingRateLimiter Key) (dedupKey : Key) (forgets : Bool) : MessagingRateLimiter Key :=
  { l with submissions := l.submissions ++ [⟨dedupKey, forgets, 0, .created, false⟩] }

/-- `if not f.done(): f.set_result(result)`, or `set_exception`. -/
def complete (func : Nat) (ending : Ending) (l : MessagingRateLimiter Key) (future : Nat) : MessagingRateLimiter Key :=
  match l.futures[future]? with
  | some ⟨owner, .pending⟩ => { l with
      futures := l.futures.set future ⟨owner, .done func ending⟩
      completed := l.completed ++ [future] }
  | _ => l

def afterFuture (submission : Submission Key) : FutureState → Submission Key
  | .done _ (.exception errorMsg) =>
    if submission.forgets ∧ submission.attempt < maxRetries ∧ isTransient errorMsg then
      { submission with attempt := submission.attempt + 1, phase := .sleeping }
    else { submission with phase := .over }
  | _ => { submission with phase := .over }

def cancelFuture (futures : List Future) (future : Nat) : List Future :=
  match futures[future]? with
  | some ⟨owner, .pending⟩ => futures.set future ⟨owner, .cancelled⟩
  | _ => futures

/-- `popleft` and `pop`; without an entry the `KeyError` ends in the worker's own handler. -/
def takeFirst (l : MessagingRateLimiter Key) (dedupKey : Key) (rest : List Key) : MessagingRateLimiter Key :=
  match l.queueMap.get? dedupKey with
  | none => { l with queueList := rest }
  | some entry => { l with queueList := rest, queueMap := l.queueMap.erase dedupKey, worker := .taken dedupKey entry }

def step (l : MessagingRateLimiter Key) : Action Key → Option (MessagingRateLimiter Key)
  | .enqueue dedupKey =>
    some ((l.submit dedupKey false).enterQueue l.submissions.length ⟨dedupKey, false, 0, .created, false⟩)
  | .fireAndForget dedupKey => some (l.submit dedupKey true)
  | .enter number =>
    match l.submissions[number]? with
    | none => none
    | some submission =>
      if submission.phase = .created ∨ submission.phase = .sleeping then some (l.enterQueue number submission) else none
  | .take =>
    match l.worker, l.queueList with
    | .idle, dedupKey :: rest => some (l.takeFirst dedupKey rest)
    | _, _ => none
  | .start =>
    match l.worker with
    | .taken dedupKey entry => some { l with worker := .running dedupKey entry, ran := l.ran ++ [(dedupKey, entry.func)] }
    | _ => none
  | .finish ending =>
    match l.worker with
    | .running _ entry => some { entry.futures.foldl (complete entry.func ending) l with worker := .idle }
    | _ => none
  | .resume number =>
    match l.submissions[number]? with
    | none => none
    | some submission =>
      match submission.phase with
      | .waiting future =>
        match l.futures[future]? with
        | none | some ⟨_, .pending⟩ => none
        | some ⟨_, state⟩ => some { l with submissions := l.submissions.set number (afterFuture submission state) }
      | _ => none
  | .cancel number =>
    match l.submissions[number]? with
    | none => none
    | some submission => some { l with
        submissions := l.submissions.set number { submission with phase := .over }
        futures := match submission.phase with
          | .waiting future => cancelFuture l.futures future
          | _ => l.futures }
  | .stop => some { l with worker := .stopped }

def machine : Machine (MessagingRateLimiter Key) (Action Key) := ⟨new, step⟩

end MessagingRateLimiter

end ClaudeProxy.Limiter
