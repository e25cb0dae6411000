import SecondGear.Lib.Calendar
import SecondGear.Lib.Decimal
import SecondGear.Model.TimerQueue

/-!
# `SecondGear.Model.Timestamp`: a time as text

`Timestamp::toString` (`Timestamp.cpp`) writes seconds, a dot and microseconds, and
`toFormattedString` the date and the time of day in UTC. Division and remainder are those of C,
which round towards zero. `gmtime_r` is that of the C library: the Gregorian calendar for all
times, and no leap seconds.
-/

set_option autoImplicit false

namespace SecondGear

open SecondGear.Lib

/-- `struct tm`, as far as it is used. -/
structure Tm where
  tm_year : Int
  tm_mon : Int
  tm_mday : Int
  tm_hour : Int
  tm_min : Int
  tm_sec : Int
deriving DecidableEq, Repr

namespace Timestamp

/-- `toString`, with a `buf` of 32 characters. -/
def toString (t : Timestamp) : String :=
  let seconds := t.tdiv kMicroSecondsPerSecond
  let microseconds := t.tmod kMicroSecondsPerSecond
  String.ofList (snprintf (32 - 1) (signed seconds ++ ['.'] ++ padded 6 microseconds))

/-- The date, and the time of day in seconds. -/
def tmOf (date : Date) (second : Int) : Tm where
  tm_year := date.year - 1900
  tm_mon := date.month - 1
  tm_mday := date.day
  tm_hour := second / 3600
  tm_min := second % 3600 / 60
  tm_sec := second % 60

/-- `gmtime_r`. -/
def gmtime (seconds : Int) : Tm := tmOf (Date.ofDayNumber (seconds / 86400)) (seconds % 86400)

/-- What `toFormattedString` hands to `snprintf`. -/
def formatted (tm_time : Tm) (microseconds : Int) : List Char :=
  spaced 4 (tm_time.tm_year + 1900) ++ padded 2 (tm_time.tm_mon + 1)
    ++ padded 2 tm_time.tm_mday ++ [' '] ++ padded 2 tm_time.tm_hour ++ [':']
    ++ padded 2 tm_time.tm_min ++ [':'] ++ padded 2 tm_time.tm_sec ++ ['.']
    ++ padded 6 microseconds

/-- `toFormattedString`, with a `buf` of 64 characters. -/
def toFormattedString (t : Timestamp) : String :=
  let seconds := t.tdiv kMicroSecondsPerSecond
  let microseconds := t.tmod kMicroSecondsPerSecond
  String.ofList (snprintf 64 (formatted (gmtime seconds) microseconds))

end Timestamp

end SecondGear
