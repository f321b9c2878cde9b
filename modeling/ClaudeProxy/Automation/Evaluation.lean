import Mathlib.Data.List.Sort
import ClaudeProxy.Automation.Schedule

namespace ClaudeProxy.Automation

open Kit

def Convertible (text : Str) : Prop := text.length ≤ 4300 ∧ text.all (fun c => (decimal? c).isSome) = true

/-- If `daily_at` is a text of two groups of digits, both can be converted. -/
def Readable (config : Members) : Prop :=
  ∀ text, Json.get config "daily_at" .null = .string text → ':' ∈ text →
    isDigits (text.takeWhile (· ≠ ':')) = true → isDigits (text.dropWhile (· ≠ ':')).tail = true →
    Convertible (text.takeWhile (· ≠ ':')) ∧ Convertible (text.dropWhile (· ≠ ':')).tail

def Representable (t : Time) : Prop := 0 ≤ t ∧ t < maxDays * dayMicros

namespace DailySchedule

def localTime (schedule : DailySchedule) (t : Time) : Time := t + schedule.offsetMinutes * minuteMicros

def Matches (schedule : DailySchedule) (day : Int) : Prop := schedule.weekdays = [] ∨ day % 7 ∈ schedule.weekdays

def scheduledAt (schedule : DailySchedule) (day : Int) : Time :=
  day * dayMicros + (schedule.hour * 60 + schedule.minute) * minuteMicros

/-- A local time at or after the scheduled time of a matching day. -/
def Reached (schedule : DailySchedule) (local_time : Time) : Prop :=
  schedule.Matches (date local_time) ∧ schedule.scheduledAt (date local_time) ≤ local_time

end DailySchedule

/-- The configuration and the times of a candidate stay inside what `int` and `datetime` take. -/
structure Evaluable (candidate : AutomationScheduleCandidate) (nowUtc : Time) : Prop where
  readable : Readable candidate.config
  now : ∀ schedule, extractDailySchedule candidate.config = .ok (some schedule) → Representable (schedule.localTime nowUtc)
  lastRun : ∀ schedule lastRun, extractDailySchedule candidate.config = .ok (some schedule) →
    schedule.Reached (schedule.localTime nowUtc) → candidate.lastRunAt = some lastRun →
    Representable (schedule.localTime lastRun)

theorem intOfDigits_ok {text : Str} : (∃ value, intOfDigits text = .ok value) ↔ Convertible text := by
  unfold Convertible intOfDigits
  rw [← parseInt?_isSome]
  cases parseInt? text <;> simp

theorem dailyAt_ok {config : Members} : (∃ parts, dailyAt config = .ok parts) ↔ Readable config := by
  unfold dailyAt Readable
  cases Json.get config "daily_at" .null with
  | string text =>
    simp only [Json.string.injEq]
    by_cases digits : ':' ∈ text ∧ isDigits (text.takeWhile (· ≠ ':')) = true ∧
        isDigits (text.dropWhile (· ≠ ':')).tail = true
    · obtain ⟨colon, before, after⟩ := digits
      rw [if_pos ⟨colon, before, after⟩]
      have both : (∀ t, text = t → ':' ∈ t → isDigits (t.takeWhile (· ≠ ':')) = true →
          isDigits (t.dropWhile (· ≠ ':')).tail = true →
          Convertible (t.takeWhile (· ≠ ':')) ∧ Convertible (t.dropWhile (· ≠ ':')).tail) ↔
          (∃ value, intOfDigits (text.takeWhile (· ≠ ':')) = .ok value) ∧
          ∃ value, intOfDigits (text.dropWhile (· ≠ ':')).tail = .ok value := by
        rw [intOfDigits_ok, intOfDigits_ok]
        constructor
        · intro all
          exact all text rfl colon before after
        · intro pair t same _ _ _
          exact same ▸ pair
      rw [both]
      cases intOfDigits (text.takeWhile (· ≠ ':')) with
      | error e => simp [Bind.bind, Except.bind]
      | ok hour =>
        cases intOfDigits (text.dropWhile (· ≠ ':')).tail with
        | error e => simp [Bind.bind, Except.bind]
        | ok minute => simp [Bind.bind, Except.bind, Pure.pure, Except.pure]
    · rw [if_neg digits]
      simp only [Except.ok.injEq, exists_eq', true_iff]
      intro t same colon before after
      subst same
      exact absurd ⟨colon, before, after⟩ digits
  | _ => simp

theorem extractDailySchedule_ok {config : Members} :
    (∃ schedule, extractDailySchedule config = .ok schedule) ↔ Readable config := by
  rw [← dailyAt_ok]
  unfold extractDailySchedule
  cases dailyAt config with
  | error e => simp [Bind.bind, Except.bind]
  | ok parts =>
    simp only [Bind.bind, Except.bind, Except.ok.injEq, exists_eq', iff_true]
    split
    · exact ⟨_, rfl⟩
    · split
      · exact ⟨_, rfl⟩
      · exact ⟨_, rfl⟩

theorem addMinutes_of_representable {schedule : DailySchedule} {t : Time} (inside : Representable (schedule.localTime t)) :
    addMinutes t schedule.offsetMinutes = .ok (schedule.localTime t) := if_pos inside

theorem addMinutes_overflow {schedule : DailySchedule} {t : Time} (outside : ¬ Representable (schedule.localTime t)) :
    addMinutes t schedule.offsetMinutes = .error .overflowError := if_neg outside

section

variable {candidate : AutomationScheduleCandidate} {nowUtc : Time} {schedule : DailySchedule}

theorem not_due_of_unscheduled (none_scheduled : extractDailySchedule candidate.config = .ok none) :
    isDailyRuleDue candidate nowUtc = .ok false := by
  unfold isDailyRuleDue
  rw [none_scheduled]
  rfl

theorem isDailyRuleDue_overflow (extracted : extractDailySchedule candidate.config = .ok (some schedule))
    (outside : ¬ Representable (schedule.localTime nowUtc)) :
    isDailyRuleDue candidate nowUtc = .error .overflowError := by
  unfold isDailyRuleDue
  rw [extracted]
  simp only [Bind.bind, Except.bind, addMinutes_overflow outside]

theorem not_due_of_not_reached (extracted : extractDailySchedule candidate.config = .ok (some schedule))
    (inside : Representable (schedule.localTime nowUtc)) (early : ¬ schedule.Reached (schedule.localTime nowUtc)) :
    isDailyRuleDue candidate nowUtc = .ok false := by
  unfold isDailyRuleDue
  rw [extracted]
  simp only [Bind.bind, Except.bind, addMinutes_of_representable inside]
  split
  · rfl
  · rename_i weekday_ok
    split
    · rfl
    · rename_i time_ok
      refine absurd ⟨?_, not_lt.mp time_ok⟩ early
      by_cases any_day : schedule.weekdays = []
      · exact .inl any_day
      · apply Or.inr
        by_contra wrong_day
        exact weekday_ok ⟨any_day, wrong_day⟩

theorem isDailyRuleDue_of_reached (extracted : extractDailySchedule candidate.config = .ok (some schedule))
    (inside : Representable (schedule.localTime nowUtc)) (reached : schedule.Reached (schedule.localTime nowUtc)) :
    isDailyRuleDue candidate nowUtc = match candidate.lastRunAt with
      | none => .ok true
      | some lastRun => (addMinutes lastRun schedule.offsetMinutes).map fun localLastRun =>
          decide (date localLastRun < date (schedule.localTime nowUtc)) := by
  unfold isDailyRuleDue
  rw [extracted]
  simp only [Bind.bind, Except.bind, addMinutes_of_representable inside]
  have weekday_ok : ¬ (schedule.weekdays ≠ [] ∧ weekday (schedule.localTime nowUtc) ∉ schedule.weekdays) := by
    intro wrong
    cases reached.1 with
    | inl any_day => exact wrong.1 any_day
    | inr on_day => exact wrong.2 on_day
  have time_ok : ¬ schedule.localTime nowUtc < schedule.onDayOf (schedule.localTime nowUtc) := not_lt.mpr reached.2
  rw [if_neg weekday_ok, if_neg time_ok]
  cases candidate.lastRunAt with
  | none => rfl
  | some lastRun =>
    cases addMinutes lastRun schedule.offsetMinutes <;> rfl

theorem isDailyRuleDue_ok : (∃ due, isDailyRuleDue candidate nowUtc = .ok due) ↔ Evaluable candidate nowUtc := by
  by_cases readable : Readable candidate.config
  · obtain ⟨found, extracted⟩ := extractDailySchedule_ok.mpr readable
    cases found with
    | none =>
      have absent : ∀ schedule, extractDailySchedule candidate.config ≠ .ok (some schedule) := by
        intro schedule
        rw [extracted]
        simp
      exact ⟨fun _ => ⟨readable, fun schedule here => absurd here (absent schedule),
        fun schedule _ here => absurd here (absent schedule)⟩, fun _ => ⟨false, not_due_of_unscheduled extracted⟩⟩
    | some schedule =>
      have only : ∀ other, extractDailySchedule candidate.config = .ok (some other) → schedule = other := by
        intro other here
        rw [extracted] at here
        exact Option.some.inj (Except.ok.inj here)
      by_cases inside : Representable (schedule.localTime nowUtc)
      · by_cases reached : schedule.Reached (schedule.localTime nowUtc)
        · rw [isDailyRuleDue_of_reached extracted inside reached]
          constructor
          · intro returns
            refine ⟨readable, fun other here => only other here ▸ inside, fun other lastRun here _ last => ?_⟩
            rw [last] at returns
            rw [← only other here]
            by_contra outside
            simp [addMinutes_overflow outside, Except.map] at returns
          · intro evaluable
            cases last : candidate.lastRunAt with
            | none => exact ⟨true, rfl⟩
            | some lastRun =>
              have before := evaluable.lastRun schedule lastRun extracted reached last
              simp [addMinutes_of_representable before, Except.map]
        · refine ⟨fun _ => ⟨readable, fun other here => only other here ▸ inside, fun other _ here there => ?_⟩,
            fun _ => ⟨false, not_due_of_not_reached extracted inside reached⟩⟩
          rw [← only other here] at there
          exact absurd there reached
      · constructor
        · intro returns
          rw [isDailyRuleDue_overflow extracted inside] at returns
          simp at returns
        · intro evaluable
          exact absurd (evaluable.now schedule extracted) inside
  · constructor
    · intro returns
      unfold isDailyRuleDue at returns
      cases extracted : extractDailySchedule candidate.config with
      | error e => simp [extracted, Bind.bind, Except.bind] at returns
      | ok found => exact absurd (extractDailySchedule_ok.mp ⟨found, extracted⟩) readable
    · intro evaluable
      exact absurd evaluable.readable readable

/-- A rule is due from its scheduled time on, until a run was recorded on that local date. -/
theorem isDailyRuleDue_iff (extracted : extractDailySchedule candidate.config = .ok (some schedule))
    (evaluable : Evaluable candidate nowUtc) :
    isDailyRuleDue candidate nowUtc = .ok true ↔ schedule.Reached (schedule.localTime nowUtc) ∧
      ∀ lastRun, candidate.lastRunAt = some lastRun →
        date (schedule.localTime lastRun) < date (schedule.localTime nowUtc) := by
  have inside := evaluable.now schedule extracted
  by_cases reached : schedule.Reached (schedule.localTime nowUtc)
  · rw [isDailyRuleDue_of_reached extracted inside reached]
    cases last : candidate.lastRunAt with
    | none => simp [reached]
    | some lastRun =>
      have before := evaluable.lastRun schedule lastRun extracted reached last
      simp [addMinutes_of_representable before, Except.map, reached]
  · rw [not_due_of_not_reached extracted inside reached]
    simp [reached]

end

end ClaudeProxy.Automation
