import ClaudeProxy.Kit.Tasks

namespace Kit

universe u

/-- What has become of a call of `acquire`. -/
inductive SlotPhase where
  /-- In the queue, the future not done. -/
  | pending
  /-- The future has its result and the task has not run since. -/
  | granted
  /-- Granted, and then the task was cancelled. -/
  | interrupted
  /-- Cancelled in the queue; the task has not run since. -/
  | cancelled
  /-- `acquire` has raised. -/
  | abandoned
  | holding
  | released
deriving DecidableEq

namespace SlotPhase

/-- The slot is away from the counter. -/
def taken : SlotPhase → Bool
  | .granted | .interrupted | .holding => true
  | _ => false

def served : SlotPhase → Bool
  | .granted | .interrupted | .holding | .released => true
  | _ => false

/-- The task of this future runs next and looks whether it can wake another. -/
def woken : SlotPhase → Bool
  | .granted | .interrupted => true
  | _ => false

/-- In the queue, with a future that is not cancelled. -/
def waiting : SlotPhase → Bool
  | .pending | .granted | .interrupted => true
  | _ => false

end SlotPhase

structure SlotRequest (α : Type u) where
  phase : SlotPhase
  /-- What the task does with its slot. -/
  work : α

/-- `asyncio.Semaphore` with all the calls of `acquire`, in the order in which they came. Those that have not ended yet
    are its queue. -/
structure Semaphore (α : Type u) where
  value : Nat
  requests : List (SlotRequest α)

namespace Semaphore

variable {α : Type u}

/-- `_wake_up_next` finds the first future that is not done. -/
def grantFirst : List (SlotRequest α) → Option (List (SlotRequest α))
  | [] => none
  | r :: rest => if r.phase = .pending then some ({ r with phase := .granted } :: rest) else (grantFirst rest).map (r :: ·)

def wakeUpNext (s : Semaphore α) : Option (Semaphore α) :=
  (grantFirst s.requests).map fun requests => ⟨s.value - 1, requests⟩

/-- Wake up as many as there are slots. -/
def wakeUp : Nat → List (SlotRequest α) → Semaphore α
  | 0, requests => ⟨0, requests⟩
  | value + 1, requests =>
    match grantFirst requests with
    | none => ⟨value + 1, requests⟩
    | some requests => wakeUp value requests

def locked (s : Semaphore α) : Bool := s.value = 0 ∨ s.requests.any fun r => r.phase.waiting

def acquire (s : Semaphore α) (work : α) : Semaphore α :=
  if s.locked then { s with requests := s.requests ++ [⟨.pending, work⟩] }
  else ⟨s.value - 1, s.requests ++ [⟨.holding, work⟩]⟩

/-- The task of a call in the queue runs again: it leaves the queue and wakes up others. -/
def resume (s : Semaphore α) (number : Nat) : Option (Semaphore α) :=
  match s.requests[number]? with
  | none => none
  | some r =>
    match r.phase with
    | .granted => some (wakeUp s.value (s.requests.set number { r with phase := .holding }))
    | .interrupted => some (wakeUp (s.value + 1) (s.requests.set number { r with phase := .abandoned }))
    | .cancelled => some (wakeUp s.value (s.requests.set number { r with phase := .abandoned }))
    | _ => none

/-- The task is cancelled while its call is in the queue. -/
def cancel (s : Semaphore α) (number : Nat) : Option (Semaphore α) :=
  match s.requests[number]? with
  | none => none
  | some r =>
    match r.phase with
    | .pending => some { s with requests := s.requests.set number { r with phase := .cancelled } }
    | .granted => some { s with requests := s.requests.set number { r with phase := .interrupted } }
    | _ => none

def release (s : Semaphore α) (number : Nat) (work : α) : Option (Semaphore α) :=
  match s.requests[number]? with
  | none => none
  | some r =>
    if r.phase = .holding then
      let returned : Semaphore α := ⟨s.value + 1, s.requests.set number ⟨.released, work⟩⟩
      some (returned.wakeUpNext.getD returned)
    else none

/-- A task goes on and keeps what it has. -/
def proceed (s : Semaphore α) (number : Nat) (work : α) : Option (Semaphore α) :=
  match s.requests[number]? with
  | none => none
  | some r => some { s with requests := s.requests.set number { r with work := work } }

def held (s : Semaphore α) : Nat := s.requests.countP fun r => r.phase.taken

/-- Nobody has a slot who came after one that still waits for his. -/
def Orderly (requests : List (SlotRequest α)) : Prop :=
  requests.Pairwise fun early late => early.phase = .pending → ¬ late.phase.served = true

/-- Nobody waits for a slot that is free, or somebody runs next who will see to it. -/
def Awake (s : Semaphore α) : Prop :=
  s.value = 0 ∨ (∀ r ∈ s.requests, r.phase ≠ .pending) ∨ ∃ r ∈ s.requests, r.phase.woken = true

structure Sound (limit : Nat) (s : Semaphore α) : Prop where
  conserved : s.value + s.held = limit
  orderly : Orderly s.requests
  awake : s.Awake

theorem grantFirst_none {requests : List (SlotRequest α)} :
    grantFirst requests = none ↔ ∀ r ∈ requests, r.phase ≠ .pending := by
  induction requests with
  | nil => simp [grantFirst]
  | cons r rest ih =>
    rw [grantFirst, List.forall_mem_cons]
    split
    · rename_i pending
      simp [pending]
    · rename_i other
      simp [other, ih]

theorem grantFirst_some {requests granted : List (SlotRequest α)} (grants : grantFirst requests = some granted) :
    ∃ front r back, requests = front ++ r :: back ∧ granted = front ++ { r with phase := .granted } :: back ∧
      r.phase = .pending ∧ ∀ early ∈ front, early.phase ≠ .pending := by
  induction requests generalizing granted with
  | nil => cases grants
  | cons r rest ih =>
    rw [grantFirst] at grants
    split at grants
    · rename_i pending
      exact ⟨[], r, rest, rfl, (Option.some.inj grants).symm, pending, by simp⟩
    · rename_i other
      obtain ⟨inner, found, rfl⟩ := Option.map_eq_some_iff.mp grants
      obtain ⟨front, next, back, rfl, rfl, pending, before⟩ := ih found
      exact ⟨r :: front, next, back, rfl, rfl, pending, List.forall_mem_cons.mpr ⟨other, before⟩⟩

section Replace

variable {front back : List (SlotRequest α)} {r next : SlotRequest α}

theorem Orderly.replace (orderly : Orderly (front ++ r :: back)) (patient : next.phase = .pending → r.phase = .pending)
    (serves : next.phase.served = true → r.phase.served = true ∨ ∀ early ∈ front, early.phase ≠ .pending) :
    Orderly (front ++ next :: back) := by
  unfold Orderly at orderly ⊢
  rw [List.pairwise_append, List.pairwise_cons] at orderly ⊢
  obtain ⟨within, ⟨after, behind⟩, across⟩ := orderly
  refine ⟨within, ⟨fun late mem pending => after late mem (patient pending), behind⟩, ?_⟩
  intro early inFront late mem
  rcases List.mem_cons.mp mem with rfl | old
  · intro pending served
    rcases serves served with already | none
    · exact across early inFront r List.mem_cons_self pending already
    · exact none early inFront pending
  · exact across early inFront late (List.mem_cons_of_mem _ old)

theorem held_replace (value : Nat) (front back : List (SlotRequest α)) (r next : SlotRequest α) : (⟨value, front ++ next :: back⟩ : Semaphore α).held + r.phase.taken.toNat =
    (⟨value, front ++ r :: back⟩ : Semaphore α).held + next.phase.taken.toNat := by
  unfold held
  simp only [List.countP_append, List.countP_cons]
  cases r.phase.taken <;> cases next.phase.taken <;> simp <;> omega

end Replace

section Wake

variable {requests : List (SlotRequest α)} {value : Nat}

/-- A slot that is given away leaves the counter. -/
theorem held_grantFirst {granted : List (SlotRequest α)} (grants : grantFirst requests = some granted) (value : Nat) :
    (⟨value, granted⟩ : Semaphore α).held = (⟨value, requests⟩ : Semaphore α).held + 1 := by
  obtain ⟨front, r, back, rfl, rfl, pending, -⟩ := grantFirst_some grants
  have count := held_replace value front back r { r with phase := .granted }
  rw [pending] at count
  exact count

theorem Orderly.grantFirst {granted : List (SlotRequest α)} (orderly : Orderly requests)
    (grants : Semaphore.grantFirst requests = some granted) : Orderly granted := by
  obtain ⟨front, r, back, rfl, rfl, -, before⟩ := grantFirst_some grants
  exact orderly.replace (fun same => by cases same) fun _ => .inr before

theorem held_wakeUp (value : Nat) (requests : List (SlotRequest α)) :
    (wakeUp value requests).value + (wakeUp value requests).held = value + (⟨value, requests⟩ : Semaphore α).held := by
  induction value generalizing requests with
  | zero => rfl
  | succ value ih =>
    rw [wakeUp]
    split
    · rfl
    · rename_i granted grants
      have count := held_grantFirst grants value
      rw [ih]
      show value + (⟨value, granted⟩ : Semaphore α).held = value + 1 + (⟨value, requests⟩ : Semaphore α).held
      omega

theorem Orderly.wakeUp (orderly : Orderly requests) (value : Nat) : Orderly (Semaphore.wakeUp value requests).requests := by
  induction value generalizing requests with
  | zero => exact orderly
  | succ value ih =>
    rw [Semaphore.wakeUp]
    split
    · exact orderly
    · rename_i grants
      exact ih (orderly.grantFirst grants)

/-- As many are woken up as there are slots for. -/
theorem wakeUp_idle (value : Nat) (requests : List (SlotRequest α)) :
    (wakeUp value requests).value = 0 ∨ ∀ r ∈ (wakeUp value requests).requests, r.phase ≠ .pending := by
  induction value generalizing requests with
  | zero => exact .inl rfl
  | succ value ih =>
    rw [wakeUp]
    split
    · rename_i none
      exact .inr (grantFirst_none.mp none)
    · exact ih _

theorem sound_wakeUp {limit : Nat} (conserved : value + (⟨value, requests⟩ : Semaphore α).held = limit)
    (orderly : Orderly requests) : (wakeUp value requests).Sound limit where
  conserved := by rw [held_wakeUp, conserved]
  orderly := orderly.wakeUp value
  awake := by
    rcases wakeUp_idle value requests with empty | none
    · exact .inl empty
    · exact .inr (.inl none)

end Wake

section Operations

variable {s next : Semaphore α} {limit number : Nat} {work : α}

theorem sound_new (limit : Nat) : (⟨limit, []⟩ : Semaphore α).Sound limit where
  conserved := rfl
  orderly := .nil
  awake := .inr (.inl (by simp))

theorem not_pending_of_free (free : ¬ s.locked = true) : s.value ≠ 0 ∧ ∀ r ∈ s.requests, r.phase ≠ .pending := by
  rw [locked, decide_eq_true_iff, not_or, List.any_eq_true, not_exists] at free
  refine ⟨free.1, fun r mem pending => free.2 r ⟨mem, ?_⟩⟩
  rw [pending]
  rfl

theorem Sound.acquire (sound : s.Sound limit) (work : α) : (s.acquire work).Sound limit := by
  have conserved := sound.conserved
  unfold Semaphore.acquire
  split
  · rename_i locked
    rw [Semaphore.locked, decide_eq_true_iff, List.any_eq_true] at locked
    constructor
    case conserved =>
      rw [← conserved]
      unfold held
      rw [List.countP_append]
      rfl
    case orderly =>
      refine List.pairwise_append.mpr ⟨sound.orderly, List.pairwise_singleton _ _, ?_⟩
      intro early _ late mem _ served
      rw [List.mem_singleton.mp mem] at served
      cases served
    case awake =>
      rcases locked with empty | ⟨r, mem, waits⟩
      · exact .inl empty
      · refine sound.awake.imp_right fun rest => .inr ?_
        rcases rest with none | ⟨woken, among, runs⟩
        · refine ⟨r, List.mem_append_left _ mem, ?_⟩
          have other := none r mem
          cases phase : r.phase <;> simp_all [SlotPhase.waiting, SlotPhase.woken]
        · exact ⟨woken, List.mem_append_left _ among, runs⟩
  · rename_i free
    obtain ⟨positive, none⟩ := not_pending_of_free free
    constructor
    case conserved =>
      unfold held at conserved ⊢
      rw [List.countP_append]
      show s.value - 1 + (s.requests.countP (fun r => r.phase.taken) + 1) = limit
      omega
    case orderly =>
      refine List.pairwise_append.mpr ⟨sound.orderly, List.pairwise_singleton _ _, ?_⟩
      intro early mem late _ pending
      exact absurd pending (none early mem)
    case awake =>
      refine .inr (.inl fun r mem => ?_)
      rcases List.mem_append.mp mem with before | new
      · exact none r before
      · rw [List.mem_singleton.mp new]
        exact fun same => by cases same

theorem Sound.resume (sound : s.Sound limit) (resumed : s.resume number = some next) : next.Sound limit := by
  unfold Semaphore.resume at resumed
  split at resumed
  · cases resumed
  rename_i r found
  have conserved := sound.conserved
  have orderly := sound.orderly
  split at resumed
  · rename_i phase
    obtain ⟨front, back, before, after⟩ := split_set found { r with phase := .holding }
    rw [Option.some.injEq, after] at resumed
    have count := held_replace s.value front back r { r with phase := .holding }
    rw [phase, ← before] at count
    rw [before] at orderly
    rw [← resumed]
    refine sound_wakeUp ?_ (orderly.replace (fun same => by cases same) fun _ => .inl (by rw [phase]; rfl))
    rw [← conserved]
    exact congrArg _ (Nat.add_right_cancel count)
  · rename_i phase
    obtain ⟨front, back, before, after⟩ := split_set found { r with phase := .abandoned }
    rw [Option.some.injEq, after] at resumed
    have count := held_replace s.value front back r { r with phase := .abandoned }
    rw [phase, ← before] at count
    rw [before] at orderly
    rw [← resumed]
    refine sound_wakeUp ?_ (orderly.replace (fun same => by cases same) fun same => by cases same)
    have one : (⟨s.value, front ++ { r with phase := .abandoned } :: back⟩ : Semaphore α).held + 1 = s.held := count
    rw [← conserved, ← one, Nat.add_assoc, Nat.add_comm 1]
    rfl
  · rename_i phase
    obtain ⟨front, back, before, after⟩ := split_set found { r with phase := .abandoned }
    rw [Option.some.injEq, after] at resumed
    have count := held_replace s.value front back r { r with phase := .abandoned }
    rw [phase, ← before] at count
    rw [before] at orderly
    rw [← resumed]
    refine sound_wakeUp ?_ (orderly.replace (fun same => by cases same) fun same => by cases same)
    rw [← conserved]
    exact congrArg _ (Nat.add_right_cancel count)
  · cases resumed

theorem Awake.replace {front back : List (SlotRequest α)} {r after : SlotRequest α} (awake : (⟨s.value, front ++ r :: back⟩ : Semaphore α).Awake)
    (patient : after.phase = .pending → r.phase = .pending) (runs : r.phase.woken = true → after.phase.woken = true) :
    (⟨s.value, front ++ after :: back⟩ : Semaphore α).Awake := by
  refine awake.imp_right fun rest => ?_
  rcases rest with none | ⟨woken, mem, active⟩
  · refine .inl fun other mem => ?_
    rcases List.mem_append.mp mem with inFront | rest
    · exact none other (List.mem_append_left _ inFront)
    · rcases List.mem_cons.mp rest with rfl | inBack
      · exact fun pending => none r (List.mem_append_right _ List.mem_cons_self) (patient pending)
      · exact none other (List.mem_append_right _ (List.mem_cons_of_mem _ inBack))
  · refine .inr ?_
    rcases List.mem_append.mp mem with inFront | rest
    · exact ⟨woken, List.mem_append_left _ inFront, active⟩
    · rcases List.mem_cons.mp rest with rfl | inBack
      · exact ⟨after, List.mem_append_right _ List.mem_cons_self, runs active⟩
      · exact ⟨woken, List.mem_append_right _ (List.mem_cons_of_mem _ inBack), active⟩

/-- A step of one task that moves no slot. -/
theorem Sound.replace (sound : s.Sound limit) {r after : SlotRequest α} (found : s.requests[number]? = some r)
    (takes : after.phase.taken = r.phase.taken) (serves : after.phase.served = r.phase.served)
    (patient : after.phase = .pending → r.phase = .pending) (runs : r.phase.woken = true → after.phase.woken = true) :
    (⟨s.value, s.requests.set number after⟩ : Semaphore α).Sound limit := by
  obtain ⟨front, back, before, set⟩ := split_set found after
  rw [set]
  have count := held_replace s.value front back r after
  rw [takes, ← before] at count
  constructor
  case conserved =>
    rw [← sound.conserved]
    exact congrArg _ (Nat.add_right_cancel count)
  case orderly =>
    have orderly := sound.orderly
    rw [before] at orderly
    exact orderly.replace patient fun served => .inl (serves ▸ served)
  case awake =>
    have awake : (⟨s.value, front ++ r :: back⟩ : Semaphore α).Awake := before ▸ sound.awake
    exact awake.replace patient runs

theorem Sound.cancel (sound : s.Sound limit) (cancelled : s.cancel number = some next) : next.Sound limit := by
  unfold Semaphore.cancel at cancelled
  split at cancelled
  · cases cancelled
  rename_i r found
  split at cancelled
  · rename_i phase
    rw [← Option.some.inj cancelled]
    exact sound.replace found (by rw [phase]; rfl) (by rw [phase]; rfl) (fun _ => phase) (by rw [phase]; intro woken; cases woken)
  · rename_i phase
    rw [← Option.some.inj cancelled]
    exact sound.replace found (by rw [phase]; rfl) (by rw [phase]; rfl) (fun same => by cases same) fun _ => rfl
  · cases cancelled

theorem Sound.proceed (sound : s.Sound limit) (ran : s.proceed number work = some next) : next.Sound limit := by
  unfold Semaphore.proceed at ran
  split at ran
  · cases ran
  · rename_i r found
    rw [← Option.some.inj ran]
    exact sound.replace found rfl rfl id id

theorem Sound.release (sound : s.Sound limit) (released : s.release number work = some next) : next.Sound limit := by
  unfold Semaphore.release at released
  split at released
  · cases released
  rename_i r found
  split at released
  · rename_i phase
    obtain ⟨front, back, before, set⟩ := split_set found ⟨.released, work⟩
    have count := held_replace s.value front back r ⟨.released, work⟩
    rw [phase, ← before] at count
    have one : (⟨s.value, front ++ ⟨.released, work⟩ :: back⟩ : Semaphore α).held + 1 = s.held := count
    have conserved := sound.conserved
    have orderly : Orderly (front ++ ⟨.released, work⟩ :: back) := by
      have orderly := sound.orderly
      rw [before] at orderly
      exact orderly.replace (fun same => by cases same) fun _ => .inl (by rw [phase]; rfl)
    simp only [set, wakeUpNext, Option.some.injEq] at released
    cases grants : grantFirst (front ++ (⟨.released, work⟩ : SlotRequest α) :: back) with
    | none =>
      rw [grants, Option.map_none, Option.getD_none] at released
      rw [← released]
      constructor
      case conserved =>
        show s.value + 1 + (⟨s.value, front ++ ⟨.released, work⟩ :: back⟩ : Semaphore α).held = limit
        omega
      case orderly => exact orderly
      case awake => exact .inr (.inl (grantFirst_none.mp grants))
    | some granted =>
      rw [grants, Option.map_some, Option.getD_some] at released
      rw [← released]
      have given := held_grantFirst grants s.value
      constructor
      case conserved =>
        show s.value + 1 - 1 + (⟨s.value, granted⟩ : Semaphore α).held = limit
        omega
      case orderly => exact orderly.grantFirst grants
      case awake =>
        obtain ⟨first, woken, rest, -, rfl, -⟩ := grantFirst_some grants
        exact .inr (.inr ⟨_, List.mem_append_right _ List.mem_cons_self, rfl⟩)
  · cases released

end Operations

section Meaning

variable {s : Semaphore α} {limit : Nat}

theorem Sound.holders_le (sound : s.Sound limit) : s.requests.countP (fun r => r.phase = .holding) ≤ limit := by
  have fewer : s.requests.countP (fun r => r.phase = .holding) ≤ s.held := by
    refine List.countP_mono_left fun r _ holding => ?_
    rw [of_decide_eq_true holding]
    rfl
  have conserved := sound.conserved
  omega

/-- Once every task that was woken up has run, somebody waits only if all slots are held. -/
theorem Sound.full_of_pending (sound : s.Sound limit) (settled : ∀ r ∈ s.requests, r.phase.woken = false)
    {r : SlotRequest α} (mem : r ∈ s.requests) (pending : r.phase = .pending) :
    s.requests.countP (fun r => r.phase = .holding) = limit := by
  have empty : s.value = 0 := by
    rcases sound.awake with empty | none | ⟨woken, among, runs⟩
    · exact empty
    · exact absurd pending (none r mem)
    · rw [settled woken among] at runs
      cases runs
  have same : s.held = s.requests.countP (fun r => r.phase = .holding) := by
    refine List.countP_congr fun r mem => ?_
    have asleep := settled r mem
    cases phase : r.phase <;> simp_all [SlotPhase.taken, SlotPhase.woken]
  rw [← same, ← sound.conserved, empty, Nat.zero_add]

/-- With nobody at it, all slots are free. -/
theorem Sound.free_of_idle (sound : s.Sound limit) (idle : ∀ r ∈ s.requests, r.phase.taken = false) : s.value = limit := by
  have none : s.held = 0 := List.countP_eq_zero.mpr fun r mem taken => by
    rw [idle r mem] at taken
    cases taken
  rw [← sound.conserved, none, Nat.add_zero]

end Meaning

/-- A property of the calls that does not depend on how far a call has come in the queue. -/
def StableInQueue (P : SlotRequest α → Prop) : Prop :=
  ∀ r phase, P r → r.phase ≠ .holding → r.phase ≠ .released → phase ≠ .released → P { r with phase := phase }

section Everywhere

variable {P : SlotRequest α → Prop} {s next : Semaphore α} {number : Nat} {work : α}

theorem forall_set {requests : List (SlotRequest α)} {r after : SlotRequest α} (all : ∀ r ∈ requests, P r)
    (found : requests[number]? = some r) (holds : P after) : ∀ r ∈ requests.set number after, P r := by
  intro other mem
  rcases mem_set found mem with rfl | before
  · exact holds
  · exact all other before

theorem forall_grantFirst (stable : StableInQueue P) {requests granted : List (SlotRequest α)} (all : ∀ r ∈ requests, P r)
    (grants : grantFirst requests = some granted) : ∀ r ∈ granted, P r := by
  obtain ⟨front, r, back, rfl, rfl, pending, -⟩ := grantFirst_some grants
  intro other mem
  rcases List.mem_append.mp mem with inFront | rest
  · exact all other (List.mem_append_left _ inFront)
  · rcases List.mem_cons.mp rest with rfl | inBack
    · have own := all r (List.mem_append_right _ List.mem_cons_self)
      exact stable r .granted own (by rw [pending]; decide) (by rw [pending]; decide) (by decide)
    · exact all other (List.mem_append_right _ (List.mem_cons_of_mem _ inBack))

theorem forall_wakeUp (stable : StableInQueue P) (value : Nat) {requests : List (SlotRequest α)} (all : ∀ r ∈ requests, P r) :
    ∀ r ∈ (wakeUp value requests).requests, P r := by
  induction value generalizing requests with
  | zero => exact all
  | succ value ih =>
    rw [wakeUp]
    split
    · exact all
    · rename_i grants
      exact ih (forall_grantFirst stable all grants)

theorem forall_acquire (all : ∀ r ∈ s.requests, P r) (waits : P ⟨.pending, work⟩) (holds : P ⟨.holding, work⟩) :
    ∀ r ∈ (s.acquire work).requests, P r := by
  unfold acquire
  split
  · exact List.forall_mem_append.mpr ⟨all, List.forall_mem_singleton.mpr waits⟩
  · exact List.forall_mem_append.mpr ⟨all, List.forall_mem_singleton.mpr holds⟩

theorem forall_resume (stable : StableInQueue P) (all : ∀ r ∈ s.requests, P r) (resumed : s.resume number = some next) :
    ∀ r ∈ next.requests, P r := by
  unfold resume at resumed
  split at resumed
  · cases resumed
  rename_i r found
  have own := all r (List.mem_of_getElem? found)
  split at resumed
  · rename_i phase
    have moved := stable r .holding own (by rw [phase]; decide) (by rw [phase]; decide) (by decide)
    exact Option.some.inj resumed ▸ forall_wakeUp stable _ (forall_set all found moved)
  · rename_i phase
    have moved := stable r .abandoned own (by rw [phase]; decide) (by rw [phase]; decide) (by decide)
    exact Option.some.inj resumed ▸ forall_wakeUp stable _ (forall_set all found moved)
  · rename_i phase
    have moved := stable r .abandoned own (by rw [phase]; decide) (by rw [phase]; decide) (by decide)
    exact Option.some.inj resumed ▸ forall_wakeUp stable _ (forall_set all found moved)
  · cases resumed

theorem forall_cancel (stable : StableInQueue P) (all : ∀ r ∈ s.requests, P r) (cancelled : s.cancel number = some next) :
    ∀ r ∈ next.requests, P r := by
  unfold cancel at cancelled
  split at cancelled
  · cases cancelled
  rename_i r found
  have own := all r (List.mem_of_getElem? found)
  split at cancelled
  · rename_i phase
    have moved := stable r .cancelled own (by rw [phase]; decide) (by rw [phase]; decide) (by decide)
    exact Option.some.inj cancelled ▸ forall_set all found moved
  · rename_i phase
    have moved := stable r .interrupted own (by rw [phase]; decide) (by rw [phase]; decide) (by decide)
    exact Option.some.inj cancelled ▸ forall_set all found moved
  · cases cancelled

theorem forall_release (stable : StableInQueue P) (all : ∀ r ∈ s.requests, P r) (done : P ⟨.released, work⟩)
    (released : s.release number work = some next) : ∀ r ∈ next.requests, P r := by
  unfold release at released
  split at released
  · cases released
  rename_i r found
  split at released
  · have back := forall_set all found done
    simp only [wakeUpNext, Option.some.injEq] at released
    cases grants : grantFirst (s.requests.set number ⟨.released, work⟩) with
    | none =>
      rw [grants] at released
      exact released ▸ back
    | some granted =>
      rw [grants] at released
      exact released ▸ forall_grantFirst stable back grants
  · cases released

theorem forall_proceed (all : ∀ r ∈ s.requests, P r) {r : SlotRequest α} (found : s.requests[number]? = some r)
    (goesOn : P { r with work := work }) (ran : s.proceed number work = some next) : ∀ r ∈ next.requests, P r := by
  rw [proceed, found] at ran
  exact Option.some.inj ran ▸ forall_set all found goesOn

end Everywhere

end Semaphore

end Kit
