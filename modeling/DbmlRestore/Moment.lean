import DbmlRestore.Text.Quoted

/-!
# Moments

Dates, times of day, and both together with or without an offset from universal
time, as a settings file may hold them. A moment has two forms: the one in which
it is shown alone (`Moment.text`) and the one that names its parts, in which it is
shown inside of a list (`Moment.parts`).
-/

namespace DbmlRestore

/-- A day of the calendar. -/
structure Date where
  /-- The year. -/
  year : Nat
  /-- The month, from one. -/
  month : Nat
  /-- The day of the month, from one. -/
  day : Nat
deriving Repr, DecidableEq

/-- A time of day. -/
structure Clock where
  /-- The hour. -/
  hour : Nat
  /-- The minute. -/
  minute : Nat
  /-- The second. -/
  second : Nat
  /-- The millionths of a second. -/
  microsecond : Nat
deriving Repr, DecidableEq

/-- A date, a time of day, or both. -/
inductive Moment where
  /-- A date. -/
  | date (d : Date)
  /-- A time of day. -/
  | time (c : Clock)
  /-- A time on a date, with the offset from universal time in minutes. -/
  | dateTime (d : Date) (c : Clock) (offset : Option Int)
deriving Repr, DecidableEq

/-! ## Calendar -/

/-- Whether a year has a day more in February. -/
def isLeapYear (year : Nat) : Bool :=
  year % 4 == 0 && (year % 100 != 0 || year % 400 == 0)

/-- The days of a month. -/
def daysOfMonth (year month : Nat) : Nat :=
  if month = 2 then (if isLeapYear year then 29 else 28)
  else if month ∈ [4, 6, 9, 11] then 30
  else 31

/-- Whether a date is in the calendar, which starts with the year one. -/
def Date.isValid (d : Date) : Bool :=
  1 ≤ d.year && 1 ≤ d.month && d.month ≤ 12 && 1 ≤ d.day && d.day ≤ daysOfMonth d.year d.month

/-! ## Alone -/

/-- A date as year, month and day. -/
def Date.text (d : Date) : Text :=
  Text.padded 4 d.year ++ '-' :: Text.padded 2 d.month ++ '-' :: Text.padded 2 d.day

/-- A time as hour, minute and second, and the millionths if there are any. -/
def Clock.text (c : Clock) : Text :=
  Text.padded 2 c.hour ++ ':' :: Text.padded 2 c.minute ++ ':' :: Text.padded 2 c.second ++
    (if c.microsecond = 0 then [] else '.' :: Text.padded 6 c.microsecond)

/-- An offset in minutes as sign, hours and minutes. -/
def offsetText (minutes : Int) : Text :=
  (if minutes < 0 then '-' else '+') ::
    Text.padded 2 (minutes.natAbs / 60) ++ ':' :: Text.padded 2 (minutes.natAbs % 60)

/-- A moment shown alone. -/
def Moment.text : Moment → Text
  | .date d => d.text
  | .time c => c.text
  | .dateTime d c offset => d.text ++ ' ' :: c.text ++ (offset.elim [] offsetText)

/-! ## By parts -/

/-- The parts of a date. -/
def Date.parts (d : Date) : List Nat := [d.year, d.month, d.day]

/-- The parts of a time, without the seconds and the millionths if they are zero. -/
def Clock.parts (c : Clock) : List Nat :=
  if c.microsecond ≠ 0 then [c.hour, c.minute, c.second, c.microsecond]
  else if c.second ≠ 0 then [c.hour, c.minute, c.second]
  else [c.hour, c.minute]

/-- An offset by its parts: days and seconds, the latter not negative. -/
def offsetParts (minutes : Int) : Text :=
  if minutes = 0 then "datetime.timezone.utc".toList
  else
    let seconds := minutes * 60
    let parts :=
      if seconds < 0 then "days=-1, seconds=".toList ++ Text.ofInt (seconds + 86400)
      else "seconds=".toList ++ Text.ofInt seconds
    "datetime.timezone(datetime.timedelta(".toList ++ parts ++ "))".toList

/-- A moment shown by its parts. -/
def Moment.parts : Moment → Text
  | .date d => call "date" d.parts []
  | .time c => call "time" c.parts []
  | .dateTime d c offset =>
    call "datetime" (d.parts ++ c.parts)
      (offset.elim [] fun o => ", tzinfo=".toList ++ offsetParts o)
where
  /-- The name of a sort of moment, its parts, and what follows them. -/
  call (name : String) (parts : List Nat) (more : Text) : Text :=
    "datetime.".toList ++ name.toList ++ '(' ::
      Text.joined ", ".toList (parts.map Text.ofNat) ++ more ++ [')']

end DbmlRestore
