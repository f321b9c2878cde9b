import Mathlib.Algebra.Ring.Nat
import Mathlib.Data.List.Basic

namespace Kit

def isLeapYear (year : Nat) : Bool := year % 4 = 0 ∧ (year % 100 ≠ 0 ∨ year % 400 = 0)

def daysInMonth (year month : Nat) : Nat :=
  if month = 2 then if isLeapYear year then 29 else 28
  else if month ∈ [4, 6, 9, 11] then 30 else 31

def daysInYear (year : Nat) : Nat := if isLeapYear year then 366 else 365

def ValidDate (year month day : Nat) : Prop :=
  1 ≤ year ∧ year ≤ 9999 ∧ 1 ≤ month ∧ month ≤ 12 ∧ 1 ≤ day ∧ day ≤ daysInMonth year month

instance (year month day : Nat) : Decidable (ValidDate year month day) := inferInstanceAs (Decidable (_ ∧ _))

structure Date where
  year : Nat
  month : Nat
  day : Nat
  valid : ValidDate year month day
deriving DecidableEq

namespace Date

def of? (year month day : Nat) : Option Date :=
  if valid : ValidDate year month day then some ⟨year, month, day, valid⟩ else none

def tomorrow? (d : Date) : Option Date :=
  if d.day < daysInMonth d.year d.month then of? d.year d.month (d.day + 1)
  else if d.month < 12 then of? d.year (d.month + 1) 1
  else of? (d.year + 1) 1 1

def yesterday? (d : Date) : Option Date :=
  if 1 < d.day then of? d.year d.month (d.day - 1)
  else if 1 < d.month then of? d.year (d.month - 1) (daysInMonth d.year (d.month - 1))
  else of? (d.year - 1) 12 31

def daysBeforeYear (year : Nat) : Nat := (year - 1) * 365 + (year - 1) / 4 - (year - 1) / 100 + (year - 1) / 400

def daysBeforeMonth (year month : Nat) : Nat := ((List.range (month - 1)).map fun m => daysInMonth year (m + 1)).sum

/-- The first day of year 1 has the ordinal 1. -/
def ordinal (d : Date) : Nat := daysBeforeYear d.year + daysBeforeMonth d.year d.month + d.day

/-- A day of a year, counted through the months. -/
def ofYearDay? (year : Nat) : Nat → Nat → Nat → Option Date
  | 0, _, _ => none
  | months + 1, month, day =>
    if day ≤ daysInMonth year month then of? year month day
    else ofYearDay? year months (month + 1) (day - daysInMonth year month)

/-- A day of a year that may lie in the year before or after; the first of January is 1. -/
def ofDayNumber? (year : Nat) (day : Int) : Option Date :=
  if day < 1 then ofYearDay? (year - 1) 12 1 (day + daysInYear (year - 1)).toNat
  else if daysInYear year < day then ofYearDay? (year + 1) 12 1 (day - daysInYear year).toNat
  else ofYearDay? year 12 1 day.toNat

/-- The weekday of the first of January; Monday is 0. -/
def firstWeekday (year : Nat) : Nat := daysBeforeYear year % 7

/-- A year has 53 weeks if it starts on a Thursday, or is a leap year that starts on a Wednesday. -/
def hasWeek53 (year : Nat) : Bool := firstWeekday year = 3 ∨ firstWeekday year = 2 ∧ isLeapYear year

/-- The Monday of week 1 is the one nearest to the first of January. -/
def ofIsoWeek? (year week day : Nat) : Option Date :=
  if 1 ≤ year ∧ year ≤ 9999 ∧ (1 ≤ week ∧ week ≤ 52 ∨ week = 53 ∧ hasWeek53 year) ∧ 1 ≤ day ∧ day ≤ 7 then
    let monday : Int := if firstWeekday year ≤ 3 then 1 - firstWeekday year else 8 - firstWeekday year
    ofDayNumber? year (monday + (week - 1) * 7 + (day - 1))
  else none

theorem of?_eq (d : Date) : of? d.year d.month d.day = some d := dif_pos d.valid

theorem of?_some {year month day : Nat} {d : Date} (eq : of? year month day = some d) :
    d.year = year ∧ d.month = month ∧ d.day = day := by
  unfold of? at eq
  split at eq
  · cases eq
    exact ⟨rfl, rfl, rfl⟩
  · cases eq

theorem le_daysInMonth (year month : Nat) : 28 ≤ daysInMonth year month := by
  unfold daysInMonth
  split_ifs <;> omega

theorem daysInMonth_le (year month : Nat) : daysInMonth year month ≤ 31 := by
  unfold daysInMonth
  split_ifs <;> omega

theorem tomorrow?_eq_none_iff (d : Date) : d.tomorrow? = none ↔ d.year = 9999 ∧ d.month = 12 ∧ d.day = 31 := by
  obtain ⟨fromYear, toYear, fromMonth, toMonth, fromDay, toDay⟩ := d.valid
  have none_iff : ∀ year month day, of? year month day = none ↔ ¬ ValidDate year month day := by
    intro year month day
    simp [of?]
  have firsts := le_daysInMonth d.year (d.month + 1)
  have january := le_daysInMonth (d.year + 1) 1
  have december : daysInMonth d.year 12 = 31 := rfl
  unfold tomorrow?
  split_ifs with more month
  · rw [none_iff]
    unfold ValidDate
    constructor
    · omega
    · rintro ⟨_, last, end'⟩
      rw [last, december, end'] at more
      omega
  · rw [none_iff]
    unfold ValidDate
    omega
  · have last : d.month = 12 := by omega
    rw [none_iff]
    unfold ValidDate
    rw [last, december] at more toDay
    omega

theorem yesterday?_tomorrow {d next : Date} (after : d.tomorrow? = some next) : next.yesterday? = some d := by
  obtain ⟨fromYear, toYear, fromMonth, toMonth, fromDay, toDay⟩ := d.valid
  have self := d.of?_eq
  unfold tomorrow? at after
  split_ifs at after with more month
  · obtain ⟨year, month, day⟩ := of?_some after
    have later : 1 < d.day + 1 := by omega
    rw [yesterday?, year, month, day, if_pos later, Nat.add_sub_cancel]
    exact self
  · obtain ⟨year, month', day⟩ := of?_some after
    have later : 1 < d.month + 1 := by omega
    have last : daysInMonth d.year d.month = d.day := by omega
    rw [yesterday?, year, month', day, if_neg (Nat.lt_irrefl 1), if_pos later, Nat.add_sub_cancel, last]
    exact self
  · obtain ⟨year, month', day⟩ := of?_some after
    have december : d.month = 12 := by omega
    have last : d.day = 31 := by
      have length : daysInMonth d.year 12 = 31 := rfl
      rw [december, length] at more toDay
      omega
    rw [yesterday?, year, month', day, if_neg (Nat.lt_irrefl 1), if_neg (Nat.lt_irrefl 1), Nat.add_sub_cancel]
    rw [december, last] at self
    exact self

example : (ofIsoWeek? 2026 12 5).map (fun d => (d.year, d.month, d.day)) = some (2026, 3, 20) := by decide

end Date

end Kit
