/-!
# Instants on the proleptic Gregorian calendar

An instant is a whole number of milliseconds since 1970-01-01T00:00:00 UTC. Days and civil
dates convert both ways by the era arithmetic of the Gregorian cycle: 400 years are exactly
146097 days, so a date is found from its era, the year of the era and the day of that year
counted from March (which puts the leap day last). Nothing depends on a time zone: every
instant is shown in UTC.
-/

namespace Transcode

namespace Calendar

/-- Milliseconds in a day. -/
def msPerDay : Int := 86400000

/-- Days from 1970-01-01 to the civil date `y-m-d` (`m` in `1..12`). -/
def daysFromCivil (y : Int) (m d : Nat) : Int :=
  let y := if m ≤ 2 then y - 1 else y
  let era := y / 400
  let yoe := y - era * 400
  let mp : Int := if m > 2 then (m : Int) - 3 else (m : Int) + 9
  let doy := (153 * mp + 2) / 5 + d - 1
  let doe := yoe * 365 + yoe / 4 - yoe / 100 + doy
  era * 146097 + doe - 719468

/-- The civil date `(year, month 1..12, day 1..31)` of a day number. -/
def civilFromDays (z : Int) : Int × Nat × Nat :=
  let z := z + 719468
  let era := z / 146097
  let doe := z - era * 146097
  let yoe := (doe - doe / 1460 + doe / 36524 - doe / 146096) / 365
  let y := yoe + era * 400
  let doy := doe - (365 * yoe + yoe / 4 - yoe / 100)
  let mp := (5 * doy + 2) / 153
  let d := doy - (153 * mp + 2) / 5 + 1
  let m := if mp < 10 then mp + 3 else mp - 9
  (if m ≤ 2 then y + 1 else y, m.toNat, d.toNat)

/-- The instant of a UTC calendar reading. A month outside `0..11` (counted from zero) carries
into the year, and a day or time field past its range carries into the next, as calendar
arithmetic does; a year in `0..99` means `1900 + year`. -/
def instantOf (year month day : Int) (hour minute second ms : Int) : Int :=
  let year := if 0 ≤ year ∧ year ≤ 99 then 1900 + year else year
  let y := year + month / 12
  let m := month % 12
  let days := daysFromCivil y (m + 1).toNat 1 + day - 1
  days * msPerDay + hour * 3600000 + minute * 60000 + second * 1000 + ms

/-- Two decimal digits. -/
def pad2 (n : Nat) : String := if n < 10 then "0" ++ toString n else toString n

/-- At least four decimal digits, with a leading minus for years before year zero. -/
def padYear (y : Int) : String :=
  let s := toString y.natAbs
  (if y < 0 then "-" else "") ++ String.ofList (List.replicate (4 - s.length) '0') ++ s

/-- The English short names of the weekdays, from Sunday. -/
def weekdayNames : List String := ["Sun", "Mon", "Tue", "Wed", "Thu", "Fri", "Sat"]

/-- The English short names of the months, from January. -/
def monthNames : List String :=
  ["Jan", "Feb", "Mar", "Apr", "May", "Jun", "Jul", "Aug", "Sep", "Oct", "Nov", "Dec"]

/-- An instant as a reader sees it in UTC:
`Fri Dec 14 2001 00:00:00 GMT+0000 (Coordinated Universal Time)`. -/
def display (t : Int) : String :=
  let days := t / msPerDay
  let inDay := (t % msPerDay).toNat
  let (y, m, d) := civilFromDays days
  -- 1970-01-01 was a Thursday.
  let wd := ((days + 4) % 7).toNat
  weekdayNames.getD wd "" ++ " " ++ monthNames.getD (m - 1) "" ++ " " ++ pad2 d ++ " " ++
    padYear y ++ " " ++ pad2 (inDay / 3600000) ++ ":" ++ pad2 (inDay / 60000 % 60) ++ ":" ++
    pad2 (inDay / 1000 % 60) ++ " GMT+0000 (Coordinated Universal Time)"

example : display (instantOf 2001 11 14 0 0 0 0) =
    "Fri Dec 14 2001 00:00:00 GMT+0000 (Coordinated Universal Time)" := by decide

end Calendar

end Transcode
