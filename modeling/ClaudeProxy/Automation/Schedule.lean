import ClaudeProxy.Kit.Digits
import ClaudeProxy.Kit.Json

namespace ClaudeProxy.Automation

open Kit

abbrev Str := List Char

abbrev Members := List (Str × Json)

inductive PyError where
  | valueError
  | overflowError
deriving DecidableEq

/-- A UTC datetime in microseconds since the start of year 1. -/
abbrev Time := Int

def minuteMicros : Int := 60000000

def dayMicros : Int := 86400000000

/-- The days of the years 1 to 9999. -/
def maxDays : Int := 3652059

def addMinutes (t : Time) (minutes : Int) : Except PyError Time :=
  let moved := t + minutes * minuteMicros
  if 0 ≤ moved ∧ moved < maxDays * dayMicros then .ok moved else .error .overflowError

def date (t : Time) : Int := t / dayMicros

/-- The first day of year 1 is a Monday. -/
def weekday (t : Time) : Int := date t % 7

structure DailySchedule where
  hour : Int
  minute : Int
  offsetMinutes : Int
  weekdays : List Int
deriving DecidableEq

structure AutomationScheduleCandidate where
  automationId : Int
  workspaceId : Int
  name : Str
  actionType : Str
  config : Members
  lastRunAt : Option Time

/-- `isinstance(value, int)`, which a bool passes. -/
def asInt : Json → Option Int
  | .integer value => some value
  | .bool value => some (if value then 1 else 0)
  | _ => none

def intOfDigits (text : Str) : Except PyError Int :=
  match parseInt? text with
  | some value => .ok value
  | none => .error .valueError

def dailyAt (config : Members) : Except PyError (Option Int × Int) :=
  match Json.get config "daily_at" .null with
  | .string text =>
    let before := text.takeWhile (· ≠ ':')
    let after := (text.dropWhile (· ≠ ':')).tail
    if ':' ∈ text ∧ isDigits before ∧ isDigits after then do
      let hour ← intOfDigits before
      let minute ← intOfDigits after
      return (some hour, minute)
    else .ok (none, 0)
  | _ => .ok (none, 0)

def scheduledWeekdays : Json → List Int
  | .array items => (items.filterMap asInt).filter fun value => 0 ≤ value ∧ value ≤ 6
  | _ => []

def extractDailySchedule (config : Members) : Except PyError (Option DailySchedule) := do
  let (dailyHour, dailyMinute) ← dailyAt config
  let hour := dailyHour.or (asInt (Json.get config "hour" .null))
  let minute := (asInt (Json.get config "minute" .null)).getD dailyMinute
  match hour with
  | none => return none
  | some hour =>
    if 0 ≤ hour ∧ hour ≤ 23 ∧ 0 ≤ minute ∧ minute ≤ 59 then
      let offsetMinutes := (asInt (Json.get config "timezone_offset_minutes" (.integer 0))).getD 0
      return some ⟨hour, minute, offsetMinutes, scheduledWeekdays (Json.get config "weekdays" .null)⟩
    else return none

/-- `local_now.replace(hour, minute, second, microsecond)` on the day of `t`. -/
def DailySchedule.onDayOf (schedule : DailySchedule) (t : Time) : Time :=
  date t * dayMicros + (schedule.hour * 60 + schedule.minute) * minuteMicros

def isDailyRuleDue (candidate : AutomationScheduleCandidate) (nowUtc : Time) : Except PyError Bool := do
  match ← extractDailySchedule candidate.config with
  | none => return false
  | some schedule =>
    let localNow ← addMinutes nowUtc schedule.offsetMinutes
    if schedule.weekdays ≠ [] ∧ weekday localNow ∉ schedule.weekdays then return false
    else if localNow < schedule.onDayOf localNow then return false
    else match candidate.lastRunAt with
      | none => return true
      | some lastRun =>
        let localLastRun ← addMinutes lastRun schedule.offsetMinutes
        return date localLastRun < date localNow

def localDate (config : Members) (t : Time) : Int :=
  match extractDailySchedule config with
  | .ok (some schedule) => date (t + schedule.offsetMinutes * minuteMicros)
  | _ => date t

theorem date_mono {t u : Time} (le : t ≤ u) : date t ≤ date u := Int.ediv_le_ediv (by decide) le

theorem localDate_mono (config : Members) {t u : Time} (le : t ≤ u) : localDate config t ≤ localDate config u := by
  unfold localDate
  split
  · apply date_mono
    exact Int.add_le_add_right le _
  · exact date_mono le

theorem addMinutes_eq {t moved : Time} {minutes : Int} (inside : addMinutes t minutes = .ok moved) :
    moved = t + minutes * minuteMicros := by
  unfold addMinutes at inside
  simp only at inside
  split at inside
  · exact (Except.ok.inj inside).symm
  · cases inside

/-- A rule is due only when its last run was on an earlier local date. -/
theorem lastRun_before_of_due {candidate : AutomationScheduleCandidate} {nowUtc lastRun : Time}
    (due : isDailyRuleDue candidate nowUtc = .ok true) (last : candidate.lastRunAt = some lastRun) :
    localDate candidate.config lastRun < localDate candidate.config nowUtc := by
  unfold isDailyRuleDue at due
  unfold localDate
  cases extracted : extractDailySchedule candidate.config with
  | error e => simp [extracted, Bind.bind, Except.bind] at due
  | ok schedule =>
    cases schedule with
    | none => simp [extracted, Bind.bind, Except.bind, Pure.pure, Except.pure] at due
    | some schedule =>
      simp only [extracted, last, Bind.bind, Except.bind, Pure.pure, Except.pure] at due ⊢
      cases now : addMinutes nowUtc schedule.offsetMinutes with
      | error e => simp [now] at due
      | ok localNow =>
        rw [now] at due
        simp only at due
        split at due
        · cases due
        · split at due
          · cases due
          · cases before : addMinutes lastRun schedule.offsetMinutes with
            | error e => simp [before] at due
            | ok localLastRun =>
              rw [before] at due
              rw [← addMinutes_eq now, ← addMinutes_eq before]
              simpa using due

end ClaudeProxy.Automation
