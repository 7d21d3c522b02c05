/-! # Dates and times

Days of the Gregorian calendar, times of day to the microsecond and offsets from universal time,
with their two notations: the compact one with dashes and colons, and the one that lists the
fields. -/

namespace Preferences

/-- A day of the Gregorian calendar. -/
structure Date where
  year : Nat
  month : Nat
  day : Nat
  deriving DecidableEq, Repr

structure TimeOfDay where
  hour : Nat
  minute : Nat
  second : Nat
  microsecond : Nat
  deriving DecidableEq, Repr

/-- A day and a time, with the offset from universal time in minutes if it is known. -/
structure DateTime where
  date : Date
  time : TimeOfDay
  offset : Option Int
  deriving DecidableEq, Repr

/-- A number with zeros in front up to the width. -/
def padded (width n : Nat) : String :=
  let digits := Nat.toDigits 10 n
  String.ofList (List.replicate (width - digits.length) '0' ++ digits)

namespace Date

/-- Whether the year has a 29th of February. -/
def isLeap (year : Nat) : Bool := year % 4 == 0 && (year % 100 != 0 || year % 400 == 0)

def monthLength (year month : Nat) : Nat :=
  if month == 2 then (if isLeap year then 29 else 28)
  else if month == 4 || month == 6 || month == 9 || month == 11 then 30 else 31

/-- Whether the fields name a day. -/
def isValid (d : Date) : Bool :=
  1 ≤ d.year && d.year ≤ 9999 && 1 ≤ d.month && d.month ≤ 12 && 1 ≤ d.day
    && d.day ≤ monthLength d.year d.month

/-- The number of the day, counted from the first day of the year 1. -/
def ordinal (d : Date) : Nat :=
  let years := d.year - 1
  let months := (List.range (d.month - 1)).foldl (fun days m => days + monthLength d.year (m + 1)) 0
  365 * years + years / 4 - years / 100 + years / 400 + months + d.day - 1

/-- The day as year, month and day with dashes. -/
def text (d : Date) : String := padded 4 d.year ++ "-" ++ padded 2 d.month ++ "-" ++ padded 2 d.day

def fields (d : Date) : List String := [toString d.year, toString d.month, toString d.day]

end Date

namespace TimeOfDay

/-- The time in microseconds since midnight. -/
def microseconds (t : TimeOfDay) : Nat :=
  ((t.hour * 60 + t.minute) * 60 + t.second) * 1000000 + t.microsecond

/-- The time with colons, and with a fraction unless that is zero. -/
def text (t : TimeOfDay) : String :=
  padded 2 t.hour ++ ":" ++ padded 2 t.minute ++ ":" ++ padded 2 t.second
    ++ (if t.microsecond == 0 then "" else "." ++ padded 6 t.microsecond)

/-- The fields of the time, without seconds and microseconds that are zero. -/
def fields (t : TimeOfDay) : List String :=
  [toString t.hour, toString t.minute]
    ++ (if t.microsecond != 0 then [toString t.second, toString t.microsecond]
      else if t.second != 0 then [toString t.second] else [])

end TimeOfDay

namespace DateTime

/-- The offset as a sign, hours and minutes. -/
def offsetText (minutes : Int) : String :=
  (if minutes < 0 then "-" else "+") ++ padded 2 (minutes.natAbs / 60) ++ ":"
    ++ padded 2 (minutes.natAbs % 60)

/-- The compact notation, with a separator between day and time. -/
def text (separator : String) (t : DateTime) : String :=
  t.date.text ++ separator ++ t.time.text ++ (t.offset.map offsetText).getD ""

/-- The notation of an offset: days and seconds, the seconds not negative. -/
def offsetNotation (minutes : Int) : String :=
  let seconds := minutes * 60
  let days := seconds.fdiv 86400
  let rest := seconds.fmod 86400
  let parts := (if days == 0 then [] else ["days=" ++ toString days])
    ++ (if rest == 0 then [] else ["seconds=" ++ toString rest])
  if minutes == 0 then "datetime.timezone.utc"
  else "datetime.timezone(datetime.timedelta(" ++ ", ".intercalate parts ++ "))"

/-- The fields of day and time, and the offset if it is known. -/
def fields (t : DateTime) : List String :=
  t.date.fields ++ t.time.fields ++ (t.offset.map fun o => "tzinfo=" ++ offsetNotation o).toList

/-- Microseconds since the start of the calendar, in universal time if the offset is known. -/
def instant (t : DateTime) : Int :=
  ((t.date.ordinal : Int) * 1440 - t.offset.getD 0) * 60000000 + t.time.microseconds

/-- Whether both name the same moment; a moment without an offset is never one with an offset. -/
def same (s t : DateTime) : Bool :=
  s.offset.isSome == t.offset.isSome && s.instant == t.instant

end DateTime

end Preferences
