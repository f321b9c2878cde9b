import ClaudeProxy.Kit.Calendar

namespace Kit

def pad : Nat → Nat → List Char
  | 0, _ => []
  | k + 1, n => pad k (n / 10) ++ [Nat.digitChar (n % 10)]

def digitValue (c : Char) : Nat := c.toNat - 48

def numberOf (text : List Char) : Nat := text.foldl (fun value c => 10 * value + digitValue c) 0

/-- As many digits as said, and what follows them. -/
def digits? (k : Nat) (text : List Char) : Option (Nat × List Char) :=
  if (text.take k).length = k ∧ (text.take k).all Char.isDigit then some (numberOf (text.take k), text.drop k) else none

structure Clock where
  hour : Nat
  minute : Nat
  second : Nat
  microsecond : Nat
  valid : hour < 24 ∧ minute < 60 ∧ second < 60 ∧ microsecond < 1000000
deriving DecidableEq

namespace Clock

def midnight : Clock := ⟨0, 0, 0, 0, by decide⟩

def of? (hour minute second microsecond : Nat) : Option Clock :=
  if valid : hour < 24 ∧ minute < 60 ∧ second < 60 ∧ microsecond < 1000000 then
    some ⟨hour, minute, second, microsecond, valid⟩
  else none

def micros (c : Clock) : Int := ((c.hour * 60 + c.minute) * 60 + c.second) * 1000000 + c.microsecond

/-- `HH:MM:SS[.ffffff]` -/
def isoformat (c : Clock) : List Char :=
  pad 2 c.hour ++ ':' :: pad 2 c.minute ++ ':' :: pad 2 c.second ++
    if c.microsecond = 0 then [] else '.' :: pad 6 c.microsecond

end Clock

/-- The offset of a timezone: east of Greenwich or west, by less than a day. -/
structure Offset where
  west : Bool
  amount : Clock
  canonical : amount.micros = 0 → west = false
deriving DecidableEq

namespace Offset

def utc : Offset := ⟨false, .midnight, fun _ => rfl⟩

def of (west : Bool) (amount : Clock) : Offset :=
  if zero : amount.micros = 0 then utc else ⟨west, amount, fun same => absurd same zero⟩

def micros (o : Offset) : Int := if o.west then -o.amount.micros else o.amount.micros

/-- `+HH:MM[:SS[.ffffff]]` -/
def isoformat (o : Offset) : List Char :=
  (if o.west then '-' else '+') :: pad 2 o.amount.hour ++ ':' :: pad 2 o.amount.minute ++
    if o.amount.second = 0 ∧ o.amount.microsecond = 0 then []
    else ':' :: pad 2 o.amount.second ++ if o.amount.microsecond = 0 then [] else '.' :: pad 6 o.amount.microsecond

end Offset

structure DateTime where
  date : Date
  clock : Clock
  offset : Option Offset
deriving DecidableEq

namespace Date

def isoformat (d : Date) : List Char := pad 4 d.year ++ '-' :: pad 2 d.month ++ '-' :: pad 2 d.day

/-- One hyphen if the date is written with hyphens, none if it is not. -/
def separator? (hyphens : Bool) : List Char → Option (List Char)
  | '-' :: rest => if hyphens then some rest else none
  | rest => if hyphens then none else some rest

/-- `_parse_isoformat_date`; a text that is two characters too long is cut off. -/
def parse? (text : List Char) : Option Date := do
  let (year, rest) ← digits? 4 text
  let hyphens := rest.head? = some '-'
  let rest := if hyphens then rest.tail else rest
  match rest with
  | 'W' :: rest => do
    let (week, rest) ← digits? 2 rest
    if rest = [] then ofIsoWeek? year week 1
    else do
      let rest ← separator? hyphens rest
      let (day, _) ← digits? 1 rest
      ofIsoWeek? year week day
  | rest => do
    let (month, rest) ← digits? 2 rest
    let rest ← separator? hyphens rest
    let (day, _) ← digits? 2 rest
    of? year month day

/-- `date.fromisoformat` -/
def fromisoformat? (text : List Char) : Option Date :=
  if text.length ∈ [7, 8, 10] then parse? text else none

end Date

namespace DateTime

def wall (t : DateTime) : Int := t.date.ordinal * 86400000000 + t.clock.micros

/-- The instant of an aware datetime; a naive one is compared by its wall clock. -/
def instant (t : DateTime) : Int := t.wall - (t.offset.map Offset.micros).getD 0

def isoformat (t : DateTime) : List Char :=
  t.date.isoformat ++ 'T' :: t.clock.isoformat ++ (t.offset.map Offset.isoformat).getD []

/-- Where the date ends: the forms of a date differ in their fifth and sixth character. -/
def separatorIndex? (text : List Char) : Option Nat :=
  if text.length = 7 then some 7
  else if text[4]? = some '-' then
    if text[5]? = some 'W' then
      if text[8]? = some '-' then
        if text.length = 9 then none
        else if (text[10]?).any Char.isDigit then some 8 else some 10
      else some 8
    else some 10
  else if text[4]? = some 'W' then
    let end' := 7 + ((text.drop 7).takeWhile Char.isDigit).length
    some (if end' < 9 then end' else if end' % 2 = 0 then 7 else 8)
  else some 8

/-- Up to six digits of a fraction of a second, in microseconds. -/
def fraction? (text : List Char) : Option Nat :=
  if text ≠ [] ∧ text.all Char.isDigit then
    some (numberOf (text.take 6) * 10 ^ (6 - (text.take 6).length))
  else none

/-- `HH[:?MM[:?SS[{.,}f+]]]` -/
def components? (text : List Char) : Option (Nat × Nat × Nat × Nat) := do
  let (hour, rest) ← digits? 2 text
  if rest = [] then return (hour, 0, 0, 0)
  let colons := rest.head? = some ':'
  let (minute, rest) ← digits? 2 (if colons then rest.tail else rest)
  if rest = [] then return (hour, minute, 0, 0)
  if colons ∧ rest.head? ≠ some ':' then none
  let (second, rest) ← digits? 2 (if colons then rest.tail else rest)
  match rest with
  | [] => return (hour, minute, second, 0)
  | mark :: rest =>
    if mark = '.' ∨ mark = ',' then do
      let microsecond ← fraction? rest
      return (hour, minute, second, microsecond)
    else none

def offset? (west : Bool) (text : List Char) : Option Offset := do
  if text.length ∈ [0, 1, 3] then none
  let (hour, minute, second, microsecond) ← components? text
  let amount ← Clock.of? hour minute second microsecond
  return Offset.of west amount

def plusHour? (t : DateTime) : Option DateTime :=
  if t.clock.hour < 23 then
    (Clock.of? (t.clock.hour + 1) t.clock.minute t.clock.second t.clock.microsecond).map fun clock => { t with clock }
  else do
    let date ← t.date.tomorrow?
    let clock ← Clock.of? 0 t.clock.minute t.clock.second t.clock.microsecond
    return { t with date, clock }

def startsZone (c : Char) : Bool := c = '+' ∨ c = '-' ∨ c = 'Z'

/-- `_parse_isoformat_time`; an hour of 24 is midnight of the next day. -/
def time? (text : List Char) : Option ((Nat × Nat × Nat × Nat) × Option Offset) := do
  let time ← components? (text.takeWhile fun c => !startsZone c)
  match text.dropWhile fun c => !startsZone c with
  | [] => return (time, none)
  | 'Z' :: rest => if rest = [] then return (time, some Offset.utc) else none
  | sign :: rest => do
    let offset ← offset? (sign = '-') rest
    return (time, some offset)

/-- `datetime.fromisoformat` -/
def fromisoformat? (text : List Char) : Option DateTime := do
  if text.length < 7 then none
  let index ← separatorIndex? text
  let date ← Date.parse? (text.take index)
  -- A separator with nothing behind it is refused.
  if text.length ≤ index then return ⟨date, .midnight, none⟩
  let ((hour, minute, second, microsecond), offset) ← time? (text.drop (index + 1))
  if hour = 24 ∧ minute = 0 ∧ second = 0 ∧ microsecond = 0 then do
    let date ← date.tomorrow?
    return ⟨date, .midnight, offset⟩
  else do
    let clock ← Clock.of? hour minute second microsecond
    return ⟨date, clock, offset⟩

end DateTime

section Digits

theorem length_pad (k n : Nat) : (pad k n).length = k := by
  induction k generalizing n with
  | zero => rfl
  | succ k ih => rw [pad, List.length_append, ih, List.length_singleton]

theorem digitChar_spec {d : Nat} (bound : d < 10) :
    (Nat.digitChar d).isDigit = true ∧ digitValue (Nat.digitChar d) = d := by
  have all : (List.range 10).all (fun d => (Nat.digitChar d).isDigit = true ∧ digitValue (Nat.digitChar d) = d) = true := by
    decide
  exact of_decide_eq_true (List.all_eq_true.mp all d (List.mem_range.mpr bound))

theorem isDigit_of_mem_pad {k n : Nat} {c : Char} (mem : c ∈ pad k n) : c.isDigit = true := by
  induction k generalizing n with
  | zero => cases mem
  | succ k ih =>
    rcases List.mem_append.mp mem with earlier | last
    · exact ih earlier
    · rw [List.mem_singleton.mp last]
      exact (digitChar_spec (Nat.mod_lt n (by decide))).1

theorem numberOf_pad {k n : Nat} (bound : n < 10 ^ k) : numberOf (pad k n) = n := by
  induction k generalizing n with
  | zero =>
    rw [Nat.pow_zero] at bound
    have zero : n = 0 := by omega
    rw [zero]
    rfl
  | succ k ih =>
    have less : n / 10 < 10 ^ k := by
      rw [Nat.pow_succ] at bound
      omega
    have last := (digitChar_spec (Nat.mod_lt n (by decide : 0 < 10))).2
    rw [numberOf, pad, List.foldl_append, List.foldl_cons, List.foldl_nil, last]
    show 10 * numberOf (pad k (n / 10)) + n % 10 = n
    rw [ih less]
    omega

theorem digits?_pad {k n : Nat} (bound : n < 10 ^ k) (rest : List Char) : digits? k (pad k n ++ rest) = some (n, rest) := by
  have whole : (pad k n ++ rest).take k = pad k n := List.take_left' (length_pad k n)
  have left : (pad k n ++ rest).drop k = rest := List.drop_left' (length_pad k n)
  have all : (pad k n).all Char.isDigit = true := List.all_eq_true.mpr fun _ mem => isDigit_of_mem_pad mem
  rw [digits?, whole, left, length_pad, all, numberOf_pad bound]
  exact if_pos ⟨rfl, rfl⟩

theorem pad_head (k n : Nat) : ∃ c rest, pad (k + 1) n = c :: rest ∧ c.isDigit = true := by
  have some : pad (k + 1) n ≠ [] := by
    unfold pad
    exact List.append_ne_nil_of_right_ne_nil _ (List.cons_ne_nil _ _)
  obtain ⟨c, rest, shape⟩ := List.exists_cons_of_ne_nil some
  have mem : c ∈ pad (k + 1) n := shape ▸ List.mem_cons_self
  exact ⟨c, rest, shape, isDigit_of_mem_pad mem⟩

theorem isDigit_ne {c d : Char} (digit : c.isDigit = true) (other : d.isDigit = false) : c ≠ d := by
  rintro rfl
  rw [digit] at other
  cases other

end Digits

namespace Date

theorem length_isoformat (d : Date) : d.isoformat.length = 10 := by
  simp [isoformat, length_pad]

theorem parse?_isoformat (d : Date) : parse? d.isoformat = some d := by
  obtain ⟨fromYear, toYear, fromMonth, toMonth, fromDay, toDay⟩ := d.valid
  have day_bound := daysInMonth_le d.year d.month
  have year : d.year < 10 ^ 4 := by omega
  have month : d.month < 10 ^ 2 := by omega
  have day : d.day < 10 ^ 2 := by omega
  have read := digits?_pad year ('-' :: (pad 2 d.month ++ '-' :: pad 2 d.day))
  have readMonth := digits?_pad month ('-' :: pad 2 d.day)
  have readDay := digits?_pad day []
  rw [List.append_nil] at readDay
  obtain ⟨c, more, shape, digit⟩ := pad_head 1 d.month
  have text : d.isoformat = pad 4 d.year ++ '-' :: (pad 2 d.month ++ '-' :: pad 2 d.day) := by simp [isoformat]
  rw [text, parse?, read]
  simp only [Option.bind_eq_bind, Option.bind_some, List.head?_cons, List.tail_cons, if_true, decide_true]
  split
  · rename_i week start
    rw [shape, List.cons_append] at start
    exact absurd (List.cons.inj start).1 (isDigit_ne digit (by decide))
  · rw [readMonth]
    simp only [Option.bind_some, separator?, if_true, readDay]
    exact of?_eq d

theorem fromisoformat?_isoformat (d : Date) : fromisoformat? d.isoformat = some d := by
  rw [fromisoformat?, length_isoformat, parse?_isoformat]
  rfl

end Date

namespace DateTime

theorem fraction?_pad {us : Nat} (bound : us < 1000000) : fraction? (pad 6 us) = some us := by
  obtain ⟨c, more, shape, -⟩ := pad_head 5 us
  have some : pad 6 us ≠ [] := shape ▸ List.cons_ne_nil _ _
  have all : (pad 6 us).all Char.isDigit = true := List.all_eq_true.mpr fun _ mem => isDigit_of_mem_pad mem
  have whole : (pad 6 us).take 6 = pad 6 us := List.take_of_length_le (Nat.le_of_eq (length_pad 6 us))
  rw [fraction?, if_pos ⟨some, all⟩, whole, length_pad, numberOf_pad bound]
  exact congrArg Option.some (Nat.mul_one us)

theorem components?_minutes {hour minute : Nat} (hours : hour < 100) (minutes : minute < 100) :
    components? (pad 2 hour ++ ':' :: pad 2 minute) = some (hour, minute, 0, 0) := by
  have readHour := digits?_pad (k := 2) hours (':' :: pad 2 minute)
  have readMinute := digits?_pad (k := 2) minutes []
  rw [List.append_nil] at readMinute
  rw [components?, readHour]
  simp [readMinute]

theorem components?_seconds {hour minute second : Nat} (hours : hour < 100) (minutes : minute < 100) (seconds : second < 100)
    (rest : List Char) :
    components? (pad 2 hour ++ ':' :: (pad 2 minute ++ ':' :: (pad 2 second ++ rest))) =
      match rest with
      | [] => some (hour, minute, second, 0)
      | mark :: rest =>
        if mark = '.' ∨ mark = ',' then (fraction? rest).map fun microsecond => (hour, minute, second, microsecond)
        else none := by
  have readHour := digits?_pad (k := 2) hours (':' :: (pad 2 minute ++ ':' :: (pad 2 second ++ rest)))
  have readMinute := digits?_pad (k := 2) minutes (':' :: (pad 2 second ++ rest))
  have readSecond := digits?_pad (k := 2) seconds rest
  rw [components?, readHour]
  simp only [Option.bind_eq_bind, Option.bind_some, List.cons_ne_nil, if_false, List.head?_cons, List.tail_cons,
    if_true, readMinute, readSecond, true_and, ne_eq, not_true_eq_false]
  cases rest with
  | nil => rfl
  | cons mark rest =>
    dsimp only
    split_ifs
    · cases fraction? rest <;> rfl
    · rfl

theorem components?_fraction {hour minute second microsecond : Nat} (hours : hour < 100) (minutes : minute < 100)
    (seconds : second < 100) (bound : microsecond < 1000000) :
    components? (pad 2 hour ++ ':' :: (pad 2 minute ++ ':' :: (pad 2 second ++
      if microsecond = 0 then [] else '.' :: pad 6 microsecond))) = some (hour, minute, second, microsecond) := by
  rw [components?_seconds hours minutes seconds]
  by_cases zero : microsecond = 0
  · rw [if_pos zero, zero]
  · simp only [if_neg zero, true_or, if_true, fraction?_pad bound, Option.map_some]

theorem components?_clock (c : Clock) :
    components? c.isoformat = some (c.hour, c.minute, c.second, c.microsecond) := by
  obtain ⟨hours, minutes, seconds, bound⟩ := c.valid
  have text : c.isoformat = pad 2 c.hour ++ ':' :: (pad 2 c.minute ++ ':' :: (pad 2 c.second ++
      if c.microsecond = 0 then [] else '.' :: pad 6 c.microsecond)) := by simp [Clock.isoformat]
  rw [text]
  exact components?_fraction (by omega) (by omega) (by omega) bound

theorem clock_of?_eq (c : Clock) : Clock.of? c.hour c.minute c.second c.microsecond = some c := dif_pos c.valid

theorem offset_of_eq (o : Offset) : Offset.of o.west o.amount = o := by
  rcases o with ⟨west, amount, canonical⟩
  unfold Offset.of
  split_ifs with zero
  · have east := canonical zero
    have amounts : amount = Clock.midnight := by
      rcases amount with ⟨hour, minute, second, microsecond, valid⟩
      simp only [Clock.micros] at zero
      have zeros : hour = 0 ∧ minute = 0 ∧ second = 0 ∧ microsecond = 0 := by omega
      obtain ⟨rfl, rfl, rfl, rfl⟩ := zeros
      rfl
    subst east amounts
    rfl
  · rfl

theorem offset_isoformat (o : Offset) :
    ∃ sign text, o.isoformat = sign :: text ∧ (sign = '+' ∨ sign = '-') ∧ offset? (sign = '-') text = some o := by
  obtain ⟨hours, minutes, seconds, bound⟩ := o.amount.valid
  have read : ∀ text, components? text = some (o.amount.hour, o.amount.minute, o.amount.second, o.amount.microsecond) →
      5 ≤ text.length → offset? o.west text = some o := by
    intro text components long
    have lengths : text.length ∉ [0, 1, 3] := by
      simp only [List.mem_cons, List.not_mem_nil, or_false]
      omega
    rw [offset?, if_neg lengths, components]
    simp only [Option.bind_eq_bind, Option.bind_some, clock_of?_eq]
    exact congrArg some (offset_of_eq o)
  have sign : (if o.west then '-' else '+') = '-' ↔ o.west = true := by
    cases o.west <;> decide
  let text := pad 2 o.amount.hour ++ ':' :: pad 2 o.amount.minute ++
    if o.amount.second = 0 ∧ o.amount.microsecond = 0 then []
    else ':' :: pad 2 o.amount.second ++ if o.amount.microsecond = 0 then [] else '.' :: pad 6 o.amount.microsecond
  refine ⟨if o.west then '-' else '+', text, rfl, ?_, ?_⟩
  · cases o.west
    · exact .inl rfl
    · exact .inr rfl
  · have west : decide ((if o.west then '-' else '+') = '-') = o.west := by
      rw [Bool.eq_iff_iff, decide_eq_true_iff]
      exact sign
    rw [west]
    apply read
    · by_cases short : o.amount.second = 0 ∧ o.amount.microsecond = 0
      · have components := components?_minutes (by omega : o.amount.hour < 100) (by omega : o.amount.minute < 100)
        simpa [text, short] using components
      · have components := components?_fraction (by omega : o.amount.hour < 100) (by omega : o.amount.minute < 100)
          (by omega : o.amount.second < 100) bound
        simpa [text, if_neg short] using components
    · simp only [text, List.length_append, List.length_cons, length_pad]
      omega

theorem clock_plain (c : Clock) : ∀ d ∈ c.isoformat, startsZone d = false := by
  have digit : ∀ {k n : Nat} {d : Char}, d ∈ pad k n → startsZone d = false := by
    intro k n d mem
    have plain := isDigit_of_mem_pad mem
    simp [startsZone, isDigit_ne plain (by decide : '+'.isDigit = false), isDigit_ne plain (by decide : '-'.isDigit = false),
      isDigit_ne plain (by decide : 'Z'.isDigit = false)]
  intro d mem
  simp only [Clock.isoformat, List.mem_append, List.mem_cons] at mem
  rcases mem with ((hour | rfl | minute) | rfl | second) | fraction
  · exact digit hour
  · decide
  · exact digit minute
  · decide
  · exact digit second
  · split_ifs at fraction
    · cases fraction
    · rcases List.mem_cons.mp fraction with rfl | microsecond
      · decide
      · exact digit microsecond

theorem time?_isoformat (c : Clock) (offset : Option Offset) :
    time? (c.isoformat ++ (offset.map Offset.isoformat).getD []) =
      some ((c.hour, c.minute, c.second, c.microsecond), offset) := by
  have before : ∀ d ∈ c.isoformat, (!startsZone d) = true := by
    intro d mem
    rw [clock_plain c d mem]
    rfl
  cases offset with
  | none =>
    have whole : c.isoformat.takeWhile (fun d => !startsZone d) = c.isoformat := by
      have split := @List.takeWhile_append_of_pos _ _ _ [] before
      simpa using split
    have left : c.isoformat.dropWhile (fun d => !startsZone d) = [] := by
      have split := @List.dropWhile_append_of_pos _ _ _ [] before
      simpa using split
    rw [Option.map_none, Option.getD_none, List.append_nil, time?, whole, left, components?_clock]
    rfl
  | some o =>
    obtain ⟨sign, text, shape, signs, read⟩ := offset_isoformat o
    have starts : startsZone sign = true := by
      rcases signs with rfl | rfl <;> decide
    have whole : (c.isoformat ++ sign :: text).takeWhile (fun d => !startsZone d) = c.isoformat := by
      rw [List.takeWhile_append_of_pos before, List.takeWhile_cons_of_neg (by simp [starts]), List.append_nil]
    have left : (c.isoformat ++ sign :: text).dropWhile (fun d => !startsZone d) = sign :: text := by
      rw [List.dropWhile_append_of_pos before, List.dropWhile_cons_of_neg (by simp [starts])]
    -- the sign decides the branch of the timezone
    have utc : sign ≠ 'Z' := by
      rcases signs with rfl | rfl <;> decide
    rw [Option.map_some, Option.getD_some, shape, time?, whole, left, components?_clock]
    simp only [Option.bind_eq_bind, Option.bind_some]
    rw [read]
    rfl

theorem separatorIndex?_isoformat (d : Date) (rest : List Char) : separatorIndex? (d.isoformat ++ rest) = some 10 := by
  obtain ⟨c, more, shape, digit⟩ := pad_head 1 d.month
  have length : (d.isoformat ++ rest).length ≠ 7 := by
    rw [List.length_append, Date.length_isoformat]
    omega
  have text : d.isoformat ++ rest = pad 4 d.year ++ ('-' :: c :: (more ++ '-' :: pad 2 d.day ++ rest)) := by
    simp [Date.isoformat, shape]
  have fifth : (d.isoformat ++ rest)[4]? = some '-' := by
    rw [text, List.getElem?_append_right (Nat.le_of_eq (length_pad 4 _)), length_pad]
    rfl
  have sixth : (d.isoformat ++ rest)[5]? = some c := by
    rw [text, List.getElem?_append_right (by rw [length_pad]; omega), length_pad]
    rfl
  have week : (some c : Option Char) ≠ some 'W' := fun same => isDigit_ne digit (by decide) (Option.some.inj same)
  rw [separatorIndex?, if_neg length, if_pos fifth, sixth, if_neg week]

example : fromisoformat? "2026-03-16T".toList = none := by decide

theorem fromisoformat?_isoformat (t : DateTime) : fromisoformat? t.isoformat = some t := by
  have text : t.isoformat = t.date.isoformat ++ 'T' :: (t.clock.isoformat ++ (t.offset.map Offset.isoformat).getD []) := by
    simp [isoformat]
  have long : ¬ t.isoformat.length < 7 := by
    rw [text, List.length_append, Date.length_isoformat]
    omega
  have date : t.isoformat.take 10 = t.date.isoformat := by
    rw [text]
    exact List.take_left' (Date.length_isoformat _)
  have time : t.isoformat.drop (10 + 1) = t.clock.isoformat ++ (t.offset.map Offset.isoformat).getD [] := by
    rw [text, ← List.drop_drop, List.drop_left' (Date.length_isoformat _)]
    rfl
  have index : separatorIndex? t.isoformat = some 10 := by
    rw [text]
    exact separatorIndex?_isoformat _ _
  have timed : ¬ t.isoformat.length ≤ 10 := by
    rw [text, List.length_append, Date.length_isoformat, List.length_cons]
    omega
  have hour : t.clock.hour ≠ 24 := Nat.ne_of_lt t.clock.valid.1
  rw [fromisoformat?, if_neg long, index]
  simp only [Option.bind_eq_bind, Option.bind_some, date, time, Date.parse?_isoformat, if_neg timed, time?_isoformat,
    hour, false_and, if_false, clock_of?_eq]
  rfl

end DateTime

section Ends

def Framed (text : List Char) : Prop :=
  (∃ c rest, text = c :: rest ∧ c.isDigit = true) ∧ ∃ rest c, text = rest ++ [c] ∧ c.isDigit = true

theorem pad_last (k n : Nat) : ∃ rest c, pad (k + 1) n = rest ++ [c] ∧ c.isDigit = true :=
  ⟨pad k (n / 10), Nat.digitChar (n % 10), rfl, (digitChar_spec (Nat.mod_lt n (by decide))).1⟩

theorem last_append {front back : List Char} (last : ∃ rest c, back = rest ++ [c] ∧ c.isDigit = true) :
    ∃ rest c, front ++ back = rest ++ [c] ∧ c.isDigit = true := by
  obtain ⟨rest, c, rfl, digit⟩ := last
  exact ⟨front ++ rest, c, (List.append_assoc _ _ _).symm, digit⟩

theorem last_cons {first : Char} {back : List Char} (last : ∃ rest c, back = rest ++ [c] ∧ c.isDigit = true) :
    ∃ rest c, first :: back = rest ++ [c] ∧ c.isDigit = true := @last_append [first] back last

theorem clock_last (c : Clock) : ∃ rest d, c.isoformat = rest ++ [d] ∧ d.isDigit = true := by
  unfold Clock.isoformat
  split_ifs with zero
  · rw [List.append_nil]
    exact last_append (last_cons (pad_last 1 _))
  · exact last_append (last_cons (pad_last 5 _))

theorem offset_last (o : Offset) : ∃ rest d, o.isoformat = rest ++ [d] ∧ d.isDigit = true := by
  unfold Offset.isoformat
  generalize (if o.west then '-' else '+') = sign
  split_ifs
  · rw [List.append_nil]
    exact last_cons (last_append (last_cons (pad_last 1 _)))
  · rw [List.append_nil]
    exact last_append (last_cons (pad_last 1 _))
  · exact last_append (last_cons (last_append (last_cons (pad_last 5 _))))

theorem framed_date (d : Date) : Framed d.isoformat := by
  obtain ⟨c, rest, shape, digit⟩ := pad_head 3 d.year
  constructor
  · refine ⟨c, rest ++ '-' :: pad 2 d.month ++ '-' :: pad 2 d.day, ?_, digit⟩
    simp [Date.isoformat, shape]
  · exact last_append (last_cons (pad_last 1 _))

theorem framed_dateTime (t : DateTime) : Framed t.isoformat := by
  obtain ⟨⟨c, rest, shape, digit⟩, -⟩ := framed_date t.date
  constructor
  · refine ⟨c, rest ++ 'T' :: t.clock.isoformat ++ (t.offset.map Offset.isoformat).getD [], ?_, digit⟩
    simp [DateTime.isoformat, shape]
  · unfold DateTime.isoformat
    cases t.offset with
    | none =>
      rw [Option.map_none, Option.getD_none, List.append_nil]
      exact last_append (last_cons (clock_last _))
    | some o => exact last_append (offset_last o)

end Ends

end Kit
