import IoSource.Number.Digits

/-!
# Dates and times

A timestamp is a date, or a date with the time of the day, which may carry the offset of its time
zone. It is read from a text in two steps: the fields as numbers, and the timestamp that they stand
for, if there is one.
-/

namespace IoSource

structure Date where
  year : Nat
  month : Nat
  day : Nat
  deriving DecidableEq, Repr

/-- A point in time, to microseconds. The offset is in seconds, and positive in the east; without
one the time zone is not known. -/
structure Moment where
  date : Date
  hour : Nat
  minute : Nat
  second : Nat
  microsecond : Nat
  offset? : Option Int
  deriving DecidableEq, Repr

/-- Why some numbers are no timestamp. -/
inductive TimeError
  | noSuchYear (year : Nat)
  | noSuchMonth
  | noSuchDay
  | noSuchHour
  | noSuchMinute
  | noSuchSecond
  /-- A time zone is less than a day away. -/
  | noSuchOffset (seconds : Int)
  deriving DecidableEq, Repr

namespace Date

def isLeap (year : Nat) : Bool := year % 4 = 0 && (year % 100 ≠ 0 || year % 400 = 0)

def daysIn (year month : Nat) : Nat :=
  match month with
  | 2 => if isLeap year then 29 else 28
  | 4 | 6 | 9 | 11 => 30
  | _ => 31

/-- The date of a year, a month and a day. -/
def ofNumbers (year month day : Nat) : Except TimeError Date :=
  if year < 1 ∨ 9999 < year then .error (.noSuchYear year)
  else if month < 1 ∨ 12 < month then .error .noSuchMonth
  else if day < 1 ∨ daysIn year month < day then .error .noSuchDay
  else .ok ⟨year, month, day⟩

def daysBefore (year : Nat) : (month : Nat) → Nat
  | 0 | 1 => 0
  | month + 1 => daysBefore year month + daysIn year month

/-- The number of days before a date. -/
def ordinal (d : Date) : Nat :=
  let past := d.year - 1
  past * 365 + past / 4 - past / 100 + past / 400 + daysBefore d.year d.month + (d.day - 1)

def padded (width n : Nat) : Text :=
  let digits := Number.decimal n
  List.replicate (width - digits.length) '0' ++ digits

def text (d : Date) : Text :=
  padded 4 d.year ++ '-' :: (padded 2 d.month ++ '-' :: padded 2 d.day)

/-- How messages show numbers that make up a value. -/
def shownCall (name : String) (ns : List Text) : Text :=
  name.toList ++ '(' :: ((ns.intersperse [',', ' ']).flatten ++ [')'])

def shown (d : Date) : Text :=
  shownCall "datetime.date" ([d.year, d.month, d.day].map Number.decimal)

end Date

namespace Moment

/-- The microseconds since the first date, of the zone if it is known. -/
def instant (m : Moment) : Int :=
  let seconds : Int := ((m.date.ordinal * 24 + m.hour) * 60 + m.minute) * 60 + m.second
  (seconds - m.offset?.getD 0) * 1000000 + m.microsecond

/-- Whether two moments are one: where the zones are known, wherever the clocks stand. -/
def same (m n : Moment) : Bool :=
  m.offset?.isSome = n.offset?.isSome && m.instant = n.instant

def offsetText (offset : Int) : Text :=
  let minutes := offset.natAbs / 60
  (if offset < 0 then '-' else '+') ::
    (Date.padded 2 (minutes / 60) ++ ':' :: Date.padded 2 (minutes % 60))

def text (m : Moment) : Text :=
  m.date.text ++ ' ' :: (Date.padded 2 m.hour ++ ':' :: (Date.padded 2 m.minute ++
    ':' :: (Date.padded 2 m.second ++
      ((if m.microsecond = 0 then [] else '.' :: Date.padded 6 m.microsecond) ++
        (m.offset?.map offsetText).getD []))))

def secondsInDay : Int := 86400

/-- How messages show a difference of time, in days and the seconds that remain. -/
def shownDifference (seconds : Int) : Text :=
  let part (name : String) (n : Int) : List Text :=
    if n = 0 then [] else [name.toList ++ '=' :: Number.decimalInt n]
  match part "days" (seconds.fdiv secondsInDay) ++ part "seconds" (seconds.fmod secondsInDay) with
  | [] => Date.shownCall "datetime.timedelta" [['0']]
  | parts => Date.shownCall "datetime.timedelta" parts

def shownZone (offset : Int) : Text :=
  if offset = 0 then "datetime.timezone.utc".toList
  else Date.shownCall "datetime.timezone" [shownDifference offset]

def shown (m : Moment) : Text :=
  let fine :=
    if m.microsecond ≠ 0 then [m.second, m.microsecond]
    else if m.second ≠ 0 then [m.second]
    else []
  let fields := [m.date.year, m.date.month, m.date.day, m.hour, m.minute] ++ fine
  let zone := (m.offset?.map fun offset => "tzinfo=".toList ++ shownZone offset).toList
  Date.shownCall "datetime.datetime" (fields.map Number.decimal ++ zone)

end Moment

namespace TimeError

def message : TimeError → Text
  | noSuchYear year => "year ".toList ++ Number.decimal year ++ " is out of range".toList
  | noSuchMonth => "month must be in 1..12".toList
  | noSuchDay => "day is out of range for month".toList
  | noSuchHour => "hour must be in 0..23".toList
  | noSuchMinute => "minute must be in 0..59".toList
  | noSuchSecond => "second must be in 0..59".toList
  | noSuchOffset seconds =>
    "offset must be a timedelta strictly between -timedelta(hours=24) and ".toList ++
      "timedelta(hours=24), not ".toList ++ Moment.shownDifference seconds ++ ['.']

end TimeError

inductive Timestamp
  | date (d : Date)
  | moment (m : Moment)
  deriving DecidableEq, Repr

namespace Timestamp

structure ClockFields where
  hour : Nat
  minute : Nat
  second : Nat
  microsecond : Nat
  offset? : Option Int
  deriving DecidableEq, Repr

structure Fields where
  year : Nat
  month : Nat
  day : Nat
  clock? : Option ClockFields
  deriving DecidableEq, Repr

/-- A number of at least `least` and at most `most` digits, and the text behind it. -/
def readNumber? (least most : Nat) (t : Text) : Option (Nat × Text) :=
  let digits := t.takeWhile Char.isDigit
  if least ≤ digits.length ∧ digits.length ≤ most then
    some (Number.ofDigits 10 digits, t.drop digits.length)
  else none

def dropChar? (c : Char) : Text → Option Text
  | [] => none
  | d :: rest => if d = c then some rest else none

/-- Year, month and day. -/
def readDate? (t : Text) : Option ((Nat × Nat × Nat) × Text) := do
  let (year, t) ← readNumber? 4 4 t
  let (month, t) ← readNumber? 1 2 (← dropChar? '-' t)
  let (day, t) ← readNumber? 1 2 (← dropChar? '-' t)
  return ((year, month, day), t)

/-- What may stand between a date and a time. -/
def dropDateEnd? : Text → Option Text
  | 'T' :: rest | 't' :: rest => some rest
  | ' ' :: rest | '\t' :: rest => some (rest.dropWhile isBlank)
  | _ => none

/-- The microseconds of the digits behind a point, of which the first six count. -/
def readFraction : Text → Nat × Text
  | '.' :: rest =>
    let digits := (rest.takeWhile Char.isDigit).take 6
    (Number.ofDigits 10 (digits ++ List.replicate (6 - digits.length) '0'),
      rest.dropWhile Char.isDigit)
  | t => (0, t)

/-- The offset of a time zone, which ends the text, if there is one. -/
def readOffset? : Text → Option (Option Int)
  | [] => some none
  | ['Z'] => some (some 0)
  | sign :: rest => do
    if sign ≠ '+' ∧ sign ≠ '-' then none
    let (hours, rest) ← readNumber? 1 2 rest
    let (minutes, rest) ← match rest with
      | ':' :: rest => readNumber? 2 2 rest
      | rest => some (0, rest)
    if rest ≠ [] then none
    let seconds : Int := (hours * 60 + minutes) * 60
    return some (if sign = '-' then -seconds else seconds)

/-- The time of a day. Blanks may stand in front of its zone. -/
def readClock? (t : Text) : Option ClockFields := do
  let (hour, t) ← readNumber? 1 2 t
  let (minute, t) ← readNumber? 2 2 (← dropChar? ':' t)
  let (second, t) ← readNumber? 2 2 (← dropChar? ':' t)
  let (microsecond, t) := readFraction t
  let zone := t.dropWhile isBlank
  if zone = [] ∧ t ≠ [] then none
  return ⟨hour, minute, second, microsecond, ← readOffset? zone⟩

/-- The numbers of a timestamp, which is all of the text. -/
def fields? (t : Text) : Option Fields := do
  let ((year, month, day), t) ← readDate? t
  if t = [] then return ⟨year, month, day, none⟩
  return ⟨year, month, day, some (← readClock? (← dropDateEnd? t))⟩

/-- The timestamp of numbers. The time zone comes before everything else. -/
def ofFields (f : Fields) : Except TimeError Timestamp :=
  match f.clock? with
  | none => date <$> Date.ofNumbers f.year f.month f.day
  | some clock => do
    if let some offset := clock.offset? then
      if Moment.secondsInDay ≤ offset.natAbs then throw (.noSuchOffset offset)
    let date ← Date.ofNumbers f.year f.month f.day
    if 23 < clock.hour then throw .noSuchHour
    if 59 < clock.minute then throw .noSuchMinute
    if 59 < clock.second then throw .noSuchSecond
    return moment ⟨date, clock.hour, clock.minute, clock.second, clock.microsecond, clock.offset?⟩

end Timestamp

end IoSource
