import Mathlib.Data.List.Induction
import ClaudeProxy.Kit.Dict
import ClaudeProxy.Kit.Placement

namespace ClaudeProxy.Cli

open Kit

/-- A `CLISession` object; they are numbered as they are made. -/
abbrev Session := Nat

structure CLISessionManager where
  sessions : Dict String Session
  pendingSessions : Dict String Session
  tempToReal : Dict String String
  realToTemp : Dict String String
  created : Nat
  stopped : List Session
deriving DecidableEq

namespace CLISessionManager

def new : CLISessionManager := ⟨.empty, .empty, .empty, .empty, 0, []⟩

/-- `hex` holds the eight digits that `uuid.uuid4` gives the call. -/
def tempId (sessionId : Option String) (hex : String) : String :=
  match sessionId with
  | none => "pending_" ++ hex
  | some id => if id = "" then "pending_" ++ hex else id

def lookup (m : CLISessionManager) (sessionId : Option String) : Option (Session × String) :=
  match sessionId with
  | none => none
  | some id =>
    if id = "" then none
    else
      let lookupId := (m.tempToReal.get? id).getD id
      match m.sessions.get? lookupId with
      | some session => some (session, lookupId)
      | none => (m.pendingSessions.get? lookupId).map fun session => (session, lookupId)

def getOrCreateSession (m : CLISessionManager) (sessionId : Option String) (hex : String) :
    (Session × String × Bool) × CLISessionManager :=
  match m.lookup sessionId with
  | some (session, lookupId) => ((session, lookupId, false), m)
  | none =>
    let temp := tempId sessionId hex
    ((m.created, temp, true),
      { m with pendingSessions := m.pendingSessions.set temp m.created, created := m.created + 1 })

def registerRealSessionId (m : CLISessionManager) (temp real : String) : Bool × CLISessionManager :=
  match m.pendingSessions.get? temp with
  | none => (false, m)
  | some session => (true, { m with
      pendingSessions := m.pendingSessions.erase temp
      sessions := m.sessions.set real session
      tempToReal := m.tempToReal.set temp real
      realToTemp := m.realToTemp.set real temp })

/-- `CLISession.stop` answers its own errors, so the manager always goes on. -/
def removeSession (m : CLISessionManager) (sessionId : String) : Bool × CLISessionManager :=
  match m.pendingSessions.get? sessionId with
  | some session => (true, { m with
      pendingSessions := m.pendingSessions.erase sessionId, stopped := m.stopped ++ [session] })
  | none =>
    match m.sessions.get? sessionId with
    | none => (false, m)
    | some session => (true, { m with
        sessions := m.sessions.erase sessionId
        stopped := m.stopped ++ [session]
        realToTemp := m.realToTemp.erase sessionId
        tempToReal := match m.realToTemp.get? sessionId with
          | none => m.tempToReal
          | some temp => m.tempToReal.erase temp })

def stopAll (m : CLISessionManager) : CLISessionManager :=
  { new with created := m.created, stopped := m.stopped ++ (m.sessions.values ++ m.pendingSessions.values) }

end CLISessionManager

inductive Operation where
  | getOrCreate (sessionId : Option String) (hex : String)
  | register (temp real : String)
  | remove (sessionId : String)
  | stopAll

namespace CLISessionManager

def apply (m : CLISessionManager) : Operation → CLISessionManager
  | .getOrCreate sessionId hex => (m.getOrCreateSession sessionId hex).2
  | .register temp real => (m.registerRealSessionId temp real).2
  | .remove sessionId => (m.removeSession sessionId).2
  | .stopAll => m.stopAll

def after (operations : List Operation) : CLISessionManager := operations.foldl apply new

/-- Where a session can be kept. -/
inductive Place where
  | pending (id : String)
  | active (id : String)
deriving DecidableEq

def sessionAt (m : CLISessionManager) : Place → Option Session
  | .pending id => m.pendingSessions.get? id
  | .active id => m.sessions.get? id

structure Intact (m : CLISessionManager) : Prop where
  inverse : ∀ temp real, m.tempToReal.get? temp = some real ↔ m.realToTemp.get? real = some temp
  pooled : ∀ session < m.created, session ∉ m.stopped → ∃! place, m.sessionAt place = some session
  stoppable : ∀ session < m.created, session ∈ m.stopAll.stopped
  removable : ∀ id session lookupId, m.lookup (some id) = some (session, lookupId) →
    (m.removeSession id).1 = true ∧ session ∈ (m.removeSession id).2.stopped ∧
      ∀ place, (m.removeSession id).2.sessionAt place ≠ some session

def Unused (m : CLISessionManager) (id : String) : Prop :=
  m.pendingSessions.get? id = none ∧ m.sessions.get? id = none

/-- A drawn id is not in use, and a session is promoted under the id that it already has. -/
def Allowed (m : CLISessionManager) : Operation → Prop
  | .getOrCreate none hex => m.Unused ("pending_" ++ hex)
  | .getOrCreate (some id) hex => id = "" → m.Unused ("pending_" ++ hex)
  | .register temp real => m.pendingSessions.contains temp = true → real = temp
  | .remove _ => True
  | .stopAll => True

/-- What holds as long as every operation is allowed: an id names one session, wherever it is kept. -/
structure Tidy (m : CLISessionManager) : Prop where
  named : m.pendingSessions.get? "" = none
  apart : ∀ id session, m.pendingSessions.get? id = some session → m.sessions.get? id = none
  promoted : ∀ temp real, m.tempToReal.get? temp = some real ↔ real = temp ∧ m.sessions.contains temp = true
  back : ∀ real temp, m.realToTemp.get? real = some temp ↔ temp = real ∧ m.sessions.contains real = true
  placed : Placed m.sessionAt m.created m.stopped

section Tidy

variable {m : CLISessionManager}

theorem tidy_new : Tidy new := by
  constructor
  · rfl
  · intro id session found
    cases found
  · intro temp real
    simp [new, Dict.contains]
  · intro real temp
    simp [new, Dict.contains]
  · have nowhere : sessionAt new = fun _ => none := by
      funext place
      cases place <;> rfl
    rw [nowhere]
    exact Placed.empty

theorem Tidy.lookup (tidy : Tidy m) {id : String} (named : id ≠ "") : m.lookup (some id) =
    match m.sessions.get? id with
    | some session => some (session, id)
    | none => (m.pendingSessions.get? id).map fun session => (session, id) := by
  have own : (m.tempToReal.get? id).getD id = id := by
    cases found : m.tempToReal.get? id with
    | none => rfl
    | some real => exact ((tidy.promoted id real).mp found).1
  simp only [CLISessionManager.lookup, if_neg named, own]

theorem Tidy.unused (tidy : Tidy m) {sessionId : Option String} {hex : String}
    (allowed : Allowed m (.getOrCreate sessionId hex)) (missing : m.lookup sessionId = none) :
    m.Unused (tempId sessionId hex) ∧ tempId sessionId hex ≠ "" := by
  have drawn : "pending_" ++ hex ≠ "" := by simp
  cases sessionId with
  | none => exact ⟨allowed, drawn⟩
  | some id =>
    by_cases named : id = ""
    · have same : tempId (some id) hex = "pending_" ++ hex := if_pos named
      rw [same]
      exact ⟨allowed named, drawn⟩
    · have same : tempId (some id) hex = id := if_neg named
      rw [tidy.lookup named] at missing
      rw [same]
      refine ⟨?_, named⟩
      cases active : m.sessions.get? id with
      | some session =>
        rw [active] at missing
        cases missing
      | none =>
        rw [active] at missing
        exact ⟨Option.map_eq_none_iff.mp missing, active⟩

theorem Tidy.create (tidy : Tidy m) {id : String} (unused : m.Unused id) (named : id ≠ "") :
    Tidy { m with pendingSessions := m.pendingSessions.set id m.created, created := m.created + 1 } := by
  have free : m.sessionAt (.pending id) = none := unused.1
  constructor
  · rw [Dict.get?_set_ne _ _ (Ne.symm named)]
    exact tidy.named
  · intro key session found
    rw [Dict.get?_set] at found
    split at found
    · rename_i here
      rw [here]
      exact unused.2
    · exact tidy.apart key session found
  · exact tidy.promoted
  · exact tidy.back
  · apply tidy.placed.put free
    intro place
    cases place with
    | pending key => simp [sessionAt, Dict.get?_set]
    | active key => simp [sessionAt]

theorem Tidy.register (tidy : Tidy m) {id : String} {session : Session} (found : m.pendingSessions.get? id = some session) :
    Tidy (m.registerRealSessionId id id).2 := by
  have free : m.sessionAt (.active id) = none := tidy.apart id session found
  rw [registerRealSessionId, found]
  constructor
  · rw [Dict.get?_erase, tidy.named, ite_self]
  · intro key other there
    rw [Dict.get?_erase] at there
    split at there
    · cases there
    · rename_i different
      rw [Dict.get?_set_ne _ _ different]
      exact tidy.apart key other there
  · intro temp real
    have before := tidy.promoted temp real
    simp only [Dict.contains, Dict.get?_set] at before ⊢
    grind
  · intro real temp
    have before := tidy.back real temp
    simp only [Dict.contains, Dict.get?_set] at before ⊢
    grind
  · have there : m.sessionAt (.pending id) = some session := found
    apply tidy.placed.move there free
    intro place
    cases place with
    | pending key => simp [sessionAt, Dict.get?_erase]
    | active key => simp [sessionAt, Dict.get?_set]

theorem Tidy.remove (tidy : Tidy m) (id : String) : Tidy (m.removeSession id).2 := by
  unfold removeSession
  cases pending : m.pendingSessions.get? id with
  | some session =>
    constructor
    · rw [Dict.get?_erase, tidy.named, ite_self]
    · intro key other there
      rw [Dict.get?_erase] at there
      split at there
      · cases there
      · exact tidy.apart key other there
    · exact tidy.promoted
    · exact tidy.back
    · have found : m.sessionAt (.pending id) = some session := pending
      apply tidy.placed.take found
      intro place
      cases place with
      | pending key => simp [sessionAt, Dict.get?_erase]
      | active key => simp [sessionAt]
  | none =>
    cases active : m.sessions.get? id with
    | none => exact tidy
    | some session =>
      have own : m.realToTemp.get? id = some id := by
        rw [tidy.back, Dict.contains, active]
        exact ⟨rfl, rfl⟩
      dsimp only
      rw [own]
      constructor
      · exact tidy.named
      · intro key other there
        rw [Dict.get?_erase, tidy.apart key other there, ite_self]
      · intro temp real
        have before := tidy.promoted temp real
        simp only [Dict.contains, Dict.get?_erase] at before ⊢
        grind
      · intro real temp
        have before := tidy.back real temp
        simp only [Dict.contains, Dict.get?_erase] at before ⊢
        grind
      · have found : m.sessionAt (.active id) = some session := active
        apply tidy.placed.take found
        intro place
        cases place with
        | pending key => simp [sessionAt]
        | active key => simp [sessionAt, Dict.get?_erase]

theorem mem_values_iff (m : CLISessionManager) (session : Session) :
    session ∈ m.sessions.values ++ m.pendingSessions.values ↔ ∃ place, m.sessionAt place = some session := by
  rw [List.mem_append]
  constructor
  · intro member
    rcases member with active | pending
    · rcases List.mem_map.mp active with ⟨⟨id, _⟩, listed, rfl⟩
      exact ⟨.active id, (Dict.get?_eq_some_iff ..).mpr listed⟩
    · rcases List.mem_map.mp pending with ⟨⟨id, _⟩, listed, rfl⟩
      exact ⟨.pending id, (Dict.get?_eq_some_iff ..).mpr listed⟩
  · intro somewhere
    rcases somewhere with ⟨place, found⟩
    cases place with
    | pending id => exact .inr (Dict.mem_values_of_get? _ found)
    | active id => exact .inl (Dict.mem_values_of_get? _ found)

theorem Tidy.stopAll (tidy : Tidy m) : Tidy m.stopAll := by
  constructor
  · rfl
  · intro id session found
    cases found
  · exact tidy_new.promoted
  · exact tidy_new.back
  · have nowhere : sessionAt m.stopAll = fun _ => none := by
      funext place
      cases place <;> rfl
    rw [nowhere]
    exact tidy.placed.clear (mem_values_iff m)

theorem Tidy.apply (tidy : Tidy m) {operation : Operation} (allowed : Allowed m operation) : Tidy (m.apply operation) := by
  cases operation with
  | getOrCreate sessionId hex =>
    simp only [CLISessionManager.apply, getOrCreateSession]
    cases missing : m.lookup sessionId with
    | some found => exact tidy
    | none =>
      rcases tidy.unused allowed missing with ⟨unused, named⟩
      exact tidy.create unused named
  | register temp real =>
    cases found : m.pendingSessions.get? temp with
    | none =>
      simp only [CLISessionManager.apply, registerRealSessionId, found]
      exact tidy
    | some session =>
      have same : real = temp := allowed (by rw [Dict.contains, found]; rfl)
      rw [same]
      exact tidy.register found
  | remove id => exact tidy.remove id
  | stopAll => exact tidy.stopAll

/-- Removing an id that names a session stops that session, and it is nowhere afterwards. -/
theorem Tidy.removable (tidy : Tidy m) {id lookupId : String} {session : Session}
    (found : m.lookup (some id) = some (session, lookupId)) :
    (m.removeSession id).1 = true ∧ session ∈ (m.removeSession id).2.stopped ∧
      ∀ place, (m.removeSession id).2.sessionAt place ≠ some session := by
  have named : id ≠ "" := by
    intro empty
    rw [CLISessionManager.lookup, if_pos empty] at found
    cases found
  have removed : (m.removeSession id).1 = true ∧ session ∈ (m.removeSession id).2.stopped := by
    rw [tidy.lookup named] at found
    cases active : m.sessions.get? id with
    | some other =>
      rw [active] at found
      cases found
      have notPending : m.pendingSessions.get? id = none := by
        cases pending : m.pendingSessions.get? id with
        | none => rfl
        | some other => exact absurd (tidy.apart id other pending) (by simp [active])
      simp [removeSession, notPending, active]
    | none =>
      rw [active] at found
      rcases Option.map_eq_some_iff.mp found with ⟨other, pending, same⟩
      cases same
      simp [removeSession, pending]
  refine ⟨removed.1, removed.2, fun place there => ?_⟩
  exact ((tidy.remove id).placed.made_iff there).2 removed.2

theorem Tidy.intact (tidy : Tidy m) : Intact m := by
  constructor
  · intro temp real
    rw [tidy.promoted, tidy.back]
    constructor
    · intro both
      exact ⟨both.1.symm, both.1 ▸ both.2⟩
    · intro both
      exact ⟨both.1.symm, both.1 ▸ both.2⟩
  · intro session isMade present
    exact tidy.placed.unique isMade present
  · intro session isMade
    show session ∈ m.stopped ++ (m.sessions.values ++ m.pendingSessions.values)
    by_cases stopped : session ∈ m.stopped
    · exact List.mem_append_left _ stopped
    · exact List.mem_append_right _ ((mem_values_iff m session).mpr ((tidy.placed.kept session).mpr ⟨isMade, stopped⟩))
  · intro id session lookupId found
    exact tidy.removable found

/-- A pending session that is promoted under another id is still found by its old one, but not removed. -/
theorem Tidy.register_other (tidy : Tidy m) {temp real : String} {session : Session}
    (found : m.pendingSessions.get? temp = some session) (other : real ≠ temp) :
    ¬ Intact (m.registerRealSessionId temp real).2 := by
  intro intact
  have named : temp ≠ "" := by
    intro empty
    rw [empty, tidy.named] at found
    cases found
  have still : (m.registerRealSessionId temp real).2.lookup (some temp) = some (session, real) := by
    simp [registerRealSessionId, found, CLISessionManager.lookup, named]
  have gone : ((m.registerRealSessionId temp real).2.removeSession temp).1 = false := by
    have inactive := tidy.apart temp session found
    simp [registerRealSessionId, found, removeSession, Dict.get?_set_ne _ _ (Ne.symm other), inactive]
  have removed := (intact.removable temp session real still).1
  rw [gone] at removed
  cases removed

/-- A drawn id that is in use hides or drops the session that uses it. -/
theorem Tidy.create_used (tidy : Tidy m) {id : String} (named : id ≠ "") (used : ¬ m.Unused id) :
    ¬ Intact { m with pendingSessions := m.pendingSessions.set id m.created, created := m.created + 1 } := by
  intro intact
  cases pending : m.pendingSessions.get? id with
  | some session =>
    have there : m.sessionAt (.pending id) = some session := pending
    have old := tidy.placed.made_iff there
    rcases intact.pooled session (Nat.lt_succ_of_lt old.1) old.2 with ⟨place, found, _⟩
    have moved : place ≠ .pending id ∧ m.sessionAt place = some session := by
      cases place with
      | active key => exact ⟨by simp, found⟩
      | pending key =>
        simp only [sessionAt, Dict.get?_set] at found
        split at found
        · exact absurd (Option.some.inj found) (Nat.ne_of_gt old.1)
        · rename_i different
          exact ⟨by simpa using different, found⟩
    exact moved.1 (tidy.placed.once place _ session moved.2 there)
  | none =>
    cases active : m.sessions.get? id with
    | none => exact used ⟨pending, active⟩
    | some session =>
      have there : m.sessionAt (.active id) = some session := active
      have old := tidy.placed.made_iff there
      have own : m.tempToReal.get? id = some id := by
        rw [tidy.promoted, Dict.contains, active]
        exact ⟨rfl, rfl⟩
      have stopped := (intact.removable id session id (by simp [CLISessionManager.lookup, named, own, active])).2.1
      simp only [removeSession, Dict.get?_set_self, List.mem_append, List.mem_singleton] at stopped
      have different := Nat.ne_of_lt old.1
      tauto

/-- An operation that is not allowed breaks the pool at once. -/
theorem Tidy.allowed (tidy : Tidy m) {operation : Operation} (intact : Intact (m.apply operation)) :
    Allowed m operation := by
  have drawn (hex : String) : "pending_" ++ hex ≠ "" := by simp
  cases operation with
  | getOrCreate sessionId hex =>
    have unused (missing : m.lookup sessionId = none) (same : tempId sessionId hex = "pending_" ++ hex) :
        m.Unused ("pending_" ++ hex) := by
      simp only [CLISessionManager.apply, getOrCreateSession, missing, same] at intact
      by_contra used
      exact tidy.create_used (drawn hex) used intact
    cases sessionId with
    | none => exact unused rfl rfl
    | some id =>
      intro empty
      exact unused (if_pos empty) (if_pos empty)
  | register temp real =>
    intro pending
    rcases Option.isSome_iff_exists.mp pending with ⟨session, found⟩
    by_contra other
    exact tidy.register_other found other intact
  | remove id => trivial
  | stopAll => trivial

end Tidy

theorem after_concat (operations : List Operation) (operation : Operation) :
    after (operations ++ [operation]) = (after operations).apply operation := by
  simp [after]

theorem tidy_after {operations : List Operation}
    (allowed : ∀ done operation, done ++ [operation] <+: operations → Allowed (after done) operation) :
    Tidy (after operations) := by
  induction operations using List.reverseRecOn with
  | nil => exact tidy_new
  | append_singleton operations operation ih =>
    rw [after_concat]
    apply Tidy.apply
    · apply ih
      intro done next inside
      exact allowed done next (inside.trans (List.prefix_append ..))
    · exact allowed operations operation List.prefix_rfl

theorem allowed_of_intact {operations : List Operation} (intact : ∀ done, done <+: operations → Intact (after done)) :
    ∀ done operation, done ++ [operation] <+: operations → Allowed (after done) operation := by
  induction operations using List.reverseRecOn with
  | nil =>
    intro done operation inside
    have short := inside.length_le
    simp at short
  | append_singleton operations last ih =>
    have before := ih fun done inside => intact done (inside.trans (List.prefix_append ..))
    intro done operation inside
    rcases List.prefix_concat_iff.mp inside with same | shorter
    · rcases List.append_inj' same rfl with ⟨rfl, lastSame⟩
      cases lastSame
      have ended := intact (done ++ [last]) List.prefix_rfl
      rw [after_concat] at ended
      exact (tidy_after before).allowed ended
    · exact before done operation shorter

/-- The pool is intact throughout exactly when every operation is allowed. -/
theorem intact_iff (operations : List Operation) : (∀ done, done <+: operations → Intact (after done)) ↔
    ∀ done operation, done ++ [operation] <+: operations → Allowed (after done) operation := by
  constructor
  · exact allowed_of_intact
  · intro allowed done inside
    exact (tidy_after fun start operation earlier => allowed start operation (earlier.trans inside)).intact

/-- Two conversations report one id: the first session is left running when all are stopped. -/
theorem not_intact_sameId : ¬ ∀ operations, Intact (after operations) := by
  intro intact
  let operations : List Operation :=
    [.getOrCreate none "a", .register "pending_a" "real", .getOrCreate none "b", .register "pending_b" "real"]
  have kept := (intact operations).stoppable 0 (by decide)
  revert kept
  decide

end CLISessionManager

end ClaudeProxy.Cli
