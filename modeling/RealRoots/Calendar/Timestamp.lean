import RealRoots.Calendar.Date
import RealRoots.Json.Stored
import RealRoots.Text.Blank
import RealRoots.Text.Scan

/-!
# Timestamps

A timestamp is a moment of universal time to the nanosecond, written as in RFC 3339 with `Z`. The
second 60 stands for a leap second.

* `Timestamp.text`: as few of 0, 3, 6 or 9 digits of a second as hold its fraction.
* `Timestamp.ofText?`: reads any offset from universal time. Blanks may stand between the parts, a
  number may lack leading zeros, and a blank may stand for the `T`.
-/

namespace RealRoots

structure Timestamp where
  date : Date
  hour : Nat
  minute : Nat
  second : Nat
  nanosecond : Nat
  hour_lt : hour < 24
  minute_lt : minute < 60
  second_le : second ≤ 60
  nanosecond_lt : nanosecond < 1000000000
  deriving DecidableEq

namespace Timestamp

/-! ## Writing -/

/-- The digits of a number, with zeros before them up to a width. -/
def padded (width n : Nat) : List Char :=
  List.replicate (width - (Nat.toDigits 10 n).length) '0' ++ Nat.toDigits 10 n

/-- Four digits, and a sign if the year is negative or has more. -/
def yearChars (year : Int) : List Char :=
  if year < 0 then '-' :: padded 4 year.natAbs
  else if 9999 < year then '+' :: padded 4 year.natAbs
  else padded 4 year.natAbs

/-- A fraction of a second, in thousands of the smallest unit that it needs. -/
def fractionChars (nanosecond : Nat) : List Char :=
  if nanosecond = 0 then []
  else if nanosecond % 1000000 = 0 then '.' :: padded 3 (nanosecond / 1000000)
  else if nanosecond % 1000 = 0 then '.' :: padded 6 (nanosecond / 1000)
  else '.' :: padded 9 nanosecond

def text (t : Timestamp) : String :=
  String.ofList <| yearChars t.date.year ++ '-' :: padded 2 t.date.month ++
    '-' :: padded 2 t.date.day ++ 'T' :: padded 2 t.hour ++ ':' :: padded 2 t.minute ++
    ':' :: padded 2 t.second ++ fractionChars t.nanosecond ++ ['Z']

/-! ## Reading -/

/-- Skips blanks. -/
def blanks : Scan Unit :=
  discard (Scan.run Text.isBlank)

/-- One digit or more, up to `most`. -/
def digits (most : Nat) : Scan (List Char) :=
  Scan.someOf Text.isDigit most

/-- A number of up to `most` digits after blanks. -/
def number (most : Nat) : Scan Nat := do
  blanks
  return Text.natOfDigits (← digits most)

/-- A character between two numbers, after blanks. -/
def mark (c : Char) : Scan Unit := do
  blanks
  discard (Scan.oneOf [c])

/-- A year: up to four digits, or a sign and any number of digits. -/
def year : Scan Int := do
  blanks
  match ← get with
  | '-' :: rest => do
    set rest
    return -(Text.natOfDigits (← digits rest.length) : Int)
  | '+' :: rest => do
    set rest
    return Text.natOfDigits (← digits rest.length)
  | _ => return Text.natOfDigits (← digits 4)

/-- The nanoseconds of a fraction, if there is one. Digits after the ninth are dropped. -/
def fraction : Scan Nat := do
  match ← get with
  | '.' :: rest => do
    set rest
    let digits ← digits rest.length
    return Text.natOfDigits (digits.take 9) * Nat.pow 10 (9 - digits.length)
  | _ => return 0

/-- An offset from universal time in minutes: `Z`, `UTC`, or a sign, hours and minutes. -/
def offset : Scan Int := do
  let cs ← get
  if (cs.take 3).map Char.toLower = ['u', 't', 'c'] then
    set (cs.drop 3)
    return 0
  match ← Scan.oneOf ['Z', 'z', '+', '-', '−'] with
  | 'Z' | 'z' => return 0
  | sign => do
    let hours ← Scan.twoDigits 24
    discard (Scan.run fun c => c == ':' || Text.isBlank c)
    let minutes ← Scan.twoDigits 60
    let size : Int := 60 * hours + minutes
    return if sign = '+' then size else -size

/-- The day and the minute of the day in universal time, for a local time and its offset in
minutes. -/
def toUniversal? (date : Date) (minutes : Nat) (offset : Int) : Option (Date × Nat) :=
  let day : Int := 24 * 60
  let universal := minutes - offset
  if universal < 0 then date.previous?.map (·, (universal + day).toNat)
  else if day ≤ universal then date.next?.map (·, (universal - day).toNat)
  else some (date, universal.toNat)

/-- The timestamp with the given parts, which have to be in range. -/
def of? (date : Date) (minutes second nanosecond : Nat) : Option Timestamp :=
  if h : minutes < 24 * 60 ∧ second ≤ 60 ∧ nanosecond < 1000000000 then
    some ⟨date, minutes / 60, minutes % 60, second, nanosecond, by omega, by omega, h.2.1, h.2.2⟩
  else none

/-- The timestamp that is `n` nanoseconds after the start of 1970. -/
def ofNanoseconds? (n : Int) : Option Timestamp := do
  let day : Int := 24 * 60 * 60 * 1000000000
  let nanoseconds := (n % day).toNat
  let seconds := nanoseconds / 1000000000
  of? (← Date.ofDayNumber? (n / day)) (seconds / 60) (seconds % 60) (nanoseconds % 1000000000)

/-- A whole text as a timestamp. -/
def scan : Scan Timestamp := do
  let year ← year
  mark '-'
  let month ← number 2
  mark '-'
  let day ← number 2
  discard (Scan.oneOf ['T', 't', ' '])
  let hour ← number 2
  mark ':'
  let minute ← number 2
  mark ':'
  let second ← number 2
  let nanosecond ← fraction
  blanks
  let offset ← offset
  blanks
  guard (hour < 24 ∧ minute < 60)
  let (date, minutes) ← toUniversal? (← Date.of? year month day) (60 * hour + minute) offset
  of? date minutes second nanosecond

def ofText? (text : String) : Option Timestamp :=
  scan.whole? text

instance : Stored Timestamp where
  write t := .string t.text
  read?
    | .string text => ofText? text
    | _ => none

end Timestamp

end RealRoots
