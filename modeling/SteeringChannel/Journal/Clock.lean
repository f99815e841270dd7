/-!
The time of a record: milliseconds since 1970 as a civil date in universal time, and its text
after a pattern.
-/

namespace SteeringChannel.Journal

structure CivilTime where
  year : Int
  month : Nat
  day : Nat
  hour : Nat
  minute : Nat
  second : Nat
  weekday : Nat
  yearDay : Nat
  deriving DecidableEq, Repr

namespace CivilTime

/-- Years begin in March here, so the leap day is the last one; 719468 days lie between
0000-03-01 and 1970-01-01. -/
def ofDays (days : Int) : Int × Nat × Nat :=
  let shifted := days + 719468
  let era := shifted.fdiv 146097
  let dayOfEra := (shifted - era * 146097).toNat
  let yearOfEra :=
    (dayOfEra - dayOfEra / 1460 + dayOfEra / 36524 - dayOfEra / 146096) / 365
  let dayOfYear := dayOfEra - (365 * yearOfEra + yearOfEra / 4 - yearOfEra / 100)
  let shiftedMonth := (5 * dayOfYear + 2) / 153
  let day := dayOfYear - (153 * shiftedMonth + 2) / 5 + 1
  let month := if shiftedMonth < 10 then shiftedMonth + 3 else shiftedMonth - 9
  let year := (yearOfEra : Int) + era * 400 + if month ≤ 2 then 1 else 0
  (year, month, day)

def isLeap (year : Int) : Bool := year % 4 == 0 && (year % 100 != 0 || year % 400 == 0)

def daysBefore (year : Int) (month : Nat) : Nat :=
  [0, 31, 59, 90, 120, 151, 181, 212, 243, 273, 304, 334].getD (month - 1) 0 +
    if 2 < month && isLeap year then 1 else 0

def ofSeconds (seconds : Int) : CivilTime :=
  let days := seconds.fdiv 86400
  let rest := (seconds - days * 86400).toNat
  let (year, month, day) := ofDays days
  { year := year
    month := month
    day := day
    hour := rest / 3600
    minute := rest / 60 % 60
    second := rest % 60
    weekday := ((days + 4).fmod 7).toNat
    yearDay := daysBefore year month + day }

def filled (width : Nat) (filler : Char) (value : Nat) : String :=
  let digits := Nat.toDigits 10 value
  String.ofList (List.replicate (width - digits.length) filler ++ digits)

def padded (width value : Nat) : String := filled width '0' value

def yearText (year : Int) : String := toString year

def weekdayNames : List String :=
  ["Sunday", "Monday", "Tuesday", "Wednesday", "Thursday", "Friday", "Saturday"]

def monthNames : List String :=
  ["January", "February", "March", "April", "May", "June", "July", "August", "September",
    "October", "November", "December"]

def hour12 (time : CivilTime) : Nat := if time.hour % 12 = 0 then 12 else time.hour % 12

def half (time : CivilTime) : String := if time.hour < 12 then "AM" else "PM"

def clock (time : CivilTime) : String :=
  padded 2 time.hour ++ ":" ++ padded 2 time.minute ++ ":" ++ padded 2 time.second

/-- The year and number of the week that a day belongs to, weeks beginning on Monday and the
first one holding the first Thursday. -/
def isoWeek (time : CivilTime) : Int × Nat :=
  let monday := (time.weekday + 6) % 7
  let weeksIn (year : Int) : Nat :=
    let shift (value : Int) : Int := (value + value.fdiv 4 - value.fdiv 100 + value.fdiv 400).fmod 7
    if shift year = 4 || shift (year - 1) = 3 then 53 else 52
  let week := (time.yearDay + 9 - monday) / 7
  if week < 1 then (time.year - 1, weeksIn (time.year - 1))
  else if weeksIn time.year < week then (time.year + 1, 1)
  else (time.year, week)

def directive (time : CivilTime) (seconds : Int) (letter : Char) : Option String :=
  let weekdayName := weekdayNames.getD time.weekday ""
  let monthName := monthNames.getD (time.month - 1) ""
  let day := padded 2 time.day
  let month := padded 2 time.month
  let shortYear := padded 2 (time.year.fmod 100).toNat
  match letter with
  | 'Y' => some (yearText time.year)
  | 'C' => some (padded 2 (time.year.fdiv 100).toNat)
  | 'y' => some shortYear
  | 'm' => some month
  | 'd' => some day
  | 'e' => some (filled 2 ' ' time.day)
  | 'H' => some (padded 2 time.hour)
  | 'k' => some (filled 2 ' ' time.hour)
  | 'I' => some (padded 2 time.hour12)
  | 'l' => some (filled 2 ' ' time.hour12)
  | 'M' => some (padded 2 time.minute)
  | 'S' => some (padded 2 time.second)
  | 'p' => some time.half
  | 'P' => some (if time.hour < 12 then "am" else "pm")
  | 'j' => some (padded 3 time.yearDay)
  | 'a' => some (String.ofList (weekdayName.toList.take 3))
  | 'A' => some weekdayName
  | 'b' => some (String.ofList (monthName.toList.take 3))
  | 'h' => some (String.ofList (monthName.toList.take 3))
  | 'B' => some monthName
  | 'w' => some (toString time.weekday)
  | 'u' => some (toString (if time.weekday = 0 then 7 else time.weekday))
  | 'U' => some (padded 2 ((time.yearDay + 6 - time.weekday) / 7))
  | 'W' => some (padded 2 ((time.yearDay + 6 - (time.weekday + 6) % 7) / 7))
  | 'V' => some (padded 2 time.isoWeek.2)
  | 'G' => some (yearText time.isoWeek.1)
  | 'g' => some (padded 2 (time.isoWeek.1.fmod 100).toNat)
  | 'T' => some time.clock
  | 'X' => some time.clock
  | 'R' => some (padded 2 time.hour ++ ":" ++ padded 2 time.minute)
  | 'r' => some (padded 2 time.hour12 ++ ":" ++ padded 2 time.minute ++ ":" ++
      padded 2 time.second ++ " " ++ time.half)
  | 'D' => some (month ++ "/" ++ day ++ "/" ++ shortYear)
  | 'x' => some (month ++ "/" ++ day ++ "/" ++ shortYear)
  | 'F' => some (yearText time.year ++ "-" ++ month ++ "-" ++ day)
  | 'c' => some (String.ofList (weekdayName.toList.take 3) ++ " " ++
      String.ofList (monthName.toList.take 3) ++ " " ++ filled 2 ' ' time.day ++ " " ++
      time.clock ++ " " ++ yearText time.year)
  | 's' => some (toString seconds)
  | 'z' => some "+0000"
  | 'Z' => some "UTC"
  | 'n' => some "\n"
  | 't' => some "\t"
  | '%' => some "%"
  | _ => none

def format (time : CivilTime) (seconds : Int) : List Char → String
  | [] => ""
  | ['%'] => "%"
  | '%' :: letter :: rest =>
      (match time.directive seconds letter with
        | some text => text
        | none => String.ofList ['%', letter]) ++ format time seconds rest
  | letter :: rest => String.ofList [letter] ++ format time seconds rest

end CivilTime

/-- Without a pattern, or with an empty one, the time has its milliseconds after a comma. -/
def timeText (pattern : Option String) (created : Int) : String :=
  let seconds := created.fdiv 1000
  let time := CivilTime.ofSeconds seconds
  match pattern with
  | none => standard time created
  | some "" => standard time created
  | some pattern => time.format seconds pattern.toList
where
  standard (time : CivilTime) (created : Int) : String :=
    time.format 0 "%Y-%m-%d %H:%M:%S,".toList ++
      CivilTime.padded 3 (created.fmod 1000).toNat

end SteeringChannel.Journal
