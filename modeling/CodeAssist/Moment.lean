import CodeAssist.Number.Decimal
import CodeAssist.Text.Blank
import CodeAssist.Text.Case
import CodeAssist.Text.Word

/-!
Moments in time and their text.

A moment counts seconds from the start of 1970 in universal time, and nanoseconds within the second.
There are moments only within the calendar. The text of a moment is a date, a time and `Z`, with a
fraction of three, six or nine digits when there is one. Reading takes any offset from universal
time and gives the same moment, as long as the date is within the calendar both before and after the
offset counts.
-/

namespace CodeAssist

namespace Moment

/-! ## 1. The calendar -/

def isLeapYear (year : Int) : Bool :=
  year % 4 == 0 && (year % 100 != 0 || year % 400 == 0)

def daysInMonth (year : Int) (month : Nat) : Nat :=
  if month == 2 then (if isLeapYear year then 29 else 28)
  else if [4, 6, 9, 11].contains month then 30
  else 31

def firstYear : Int := -262143

def lastYear : Int := 262142

/-- Days from 1970-01-01 to a date. Years are counted from March, so that the leap day is the
last one. -/
def daysOfDate (year : Int) (month day : Nat) : Int :=
  let y := if month ≤ 2 then year - 1 else year
  let era := Int.fdiv y 400
  let yearOfEra := y - era * 400
  let fromMarch : Int := (month + 9) % 12
  let dayOfYear := (153 * fromMarch + 2) / 5 + (day : Int) - 1
  let dayOfEra := yearOfEra * 365 + yearOfEra / 4 - yearOfEra / 100 + dayOfYear
  era * 146097 + dayOfEra - 719468

/-- The date, as year, month and day, of a number of days from 1970-01-01. -/
def dateOfDays (days : Int) : Int × Nat × Nat :=
  let z := days + 719468
  let era := Int.fdiv z 146097
  let dayOfEra := z - era * 146097
  let yearOfEra := (dayOfEra - dayOfEra / 1460 + dayOfEra / 36524 - dayOfEra / 146096) / 365
  let dayOfYear := dayOfEra - (365 * yearOfEra + yearOfEra / 4 - yearOfEra / 100)
  let fromMarch := (5 * dayOfYear + 2) / 153
  let day := dayOfYear - (153 * fromMarch + 2) / 5 + 1
  let month := if fromMarch < 10 then fromMarch + 3 else fromMarch - 9
  let year := yearOfEra + era * 400 + (if month ≤ 2 then 1 else 0)
  (year, month.toNat, day.toNat)

/-- Whether a number of days from 1970-01-01 is a date of the calendar. -/
def inCalendar (days : Int) : Bool :=
  daysOfDate firstYear 1 1 ≤ days && days ≤ daysOfDate lastYear 12 31

/-- Seconds and nanoseconds of a moment of the calendar: whole nanoseconds below a second, or a leap
second at the end of a minute. -/
def Valid (seconds : Int) (nanos : Nat) : Prop :=
  inCalendar (Int.fdiv seconds 86400) = true ∧
    (nanos < 1000000000 ∨ (nanos < 2000000000 ∧ seconds % 60 = 59))

instance (seconds : Int) (nanos : Nat) : Decidable (Valid seconds nanos) :=
  inferInstanceAs (Decidable (_ ∧ _))

end Moment

/-- A moment: whole seconds since 1970-01-01 in universal time, and nanoseconds. A leap second is
the second before it with a thousand million nanoseconds or more. -/
structure Moment where
  seconds : Int
  nanos : Nat
  valid : Moment.Valid seconds nanos := by decide
  deriving DecidableEq, Repr

namespace Moment

open Text (dropBlank isAsciiDigit)

/-- The start of 1970. -/
def epoch : Moment :=
  { seconds := 0, nanos := 0 }

instance : Inhabited Moment := ⟨epoch⟩

/-! ## 2. Writing -/

def padded (width n : Nat) : List Char :=
  let ds := Number.digitsOf n
  List.replicate (width - ds.length) '0' ++ ds

/-- A year: four digits, or a sign and at least four digits outside the years 0 to 9999. -/
def writeYear (year : Int) : List Char :=
  if 0 ≤ year && year ≤ 9999 then padded 4 year.toNat
  else (if year < 0 then '-' else '+') :: padded 4 year.natAbs

/-- The fraction of a second, of no, three, six or nine digits. -/
def writeFraction (nanos : Nat) : List Char :=
  if nanos == 0 then []
  else if nanos % 1000000 == 0 then '.' :: padded 3 (nanos / 1000000)
  else if nanos % 1000 == 0 then '.' :: padded 6 (nanos / 1000)
  else '.' :: padded 9 nanos

def toText (m : Moment) : String :=
  let days := Int.fdiv m.seconds 86400
  let secondOfDay := (m.seconds - days * 86400).toNat
  let (year, month, day) := dateOfDays days
  let leap := 1000000000 ≤ m.nanos
  let second := secondOfDay % 60 + (if leap then 1 else 0)
  let nanos := if leap then m.nanos - 1000000000 else m.nanos
  String.ofList <|
    writeYear year ++ '-' :: padded 2 month ++ '-' :: padded 2 day ++ 'T' ::
      padded 2 (secondOfDay / 3600) ++ ':' :: padded 2 (secondOfDay / 60 % 60) ++ ':' ::
      padded 2 second ++ writeFraction nanos ++ ['Z']

/-! ## 3. Reading -/

/-- A natural of at least one and at most `width` digits, and the text after it. -/
def number (width : Nat) (cs : List Char) : Option (Nat × List Char) :=
  let ds := (cs.takeWhile isAsciiDigit).take width
  if ds.isEmpty then none
  else some (ds.foldl (fun n d => n * 10 + (d.toNat - 0x30)) 0, cs.drop ds.length)

def field (width low high : Nat) (cs : List Char) : Option (Nat × List Char) := do
  let (n, rest) ← number width (dropBlank cs)
  if low ≤ n && n ≤ high then some (n, rest) else none

/-- A year: four digits at most, or any number of digits after a sign. -/
def yearField (cs : List Char) : Option (Int × List Char) :=
  match dropBlank cs with
  | '-' :: rest => (number rest.length rest).map fun (n, more) => (-(n : Int), more)
  | '+' :: rest => (number rest.length rest).map fun (n, more) => ((n : Int), more)
  | cs => (number 4 cs).map fun (n, more) => ((n : Int), more)

/-- The text after a separator, blanks before it skipped. -/
def separator (c : Char) (cs : List Char) : Option (List Char) :=
  match dropBlank cs with
  | d :: rest => if d == c then some rest else none
  | [] => none

/-- Nanoseconds after a point; digits beyond the ninth do not count. -/
def fractionField : List Char → Option (Nat × List Char)
  | '.' :: rest => do
    let (n, _) ← number 9 rest
    let count := ((rest.takeWhile isAsciiDigit).take 9).length
    return (n * Nat.pow 10 (9 - count), rest.dropWhile isAsciiDigit)
  | cs => some (0, cs)

/-- Hours and minutes of an offset, in seconds. -/
def offsetDigits : List Char → Option (Nat × List Char)
  | a :: b :: rest =>
    if isAsciiDigit a && isAsciiDigit b then
      match rest.dropWhile (fun c => c == ':' || Text.isBlank c) with
      | c :: d :: more =>
        if '0' ≤ c && c ≤ '5' && isAsciiDigit d then
          let hours := (a.toNat - 0x30) * 10 + (b.toNat - 0x30)
          let minutes := (c.toNat - 0x30) * 10 + (d.toNat - 0x30)
          let total := hours * 3600 + minutes * 60
          if total < 86400 then some (total, more) else none
        else none
      | _ => none
    else none
  | _ => none

/-- The text after the letters of universal time, `Z` or `UTC` in capitals or small letters. -/
def afterUniversal (cs : List Char) : Option (List Char) :=
  if (cs.take 3).map Text.asciiLower == ['u', 't', 'c'] then some (cs.drop 3)
  else if (cs.take 1).map Text.asciiLower == ['z'] then some (cs.drop 1)
  else none

/-- An offset from universal time, in seconds; the minus may be a hyphen or the sign itself. -/
def offsetField (cs : List Char) : Option (Int × List Char) :=
  let cs := dropBlank cs
  match afterUniversal cs with
  | some rest => some (0, rest)
  | none =>
    match cs with
    | '+' :: rest => (offsetDigits rest).map fun (n, more) => ((n : Int), more)
    | '-' :: rest => (offsetDigits rest).map fun (n, more) => (-(n : Int), more)
    | '\u2212' :: rest => (offsetDigits rest).map fun (n, more) => (-(n : Int), more)
    | _ => none

/-- The moment that a date, a time and an offset name. -/
def ofChars? (cs : List Char) : Option Moment := do
  let (year, cs) ← yearField cs
  let cs ← separator '-' cs
  let (month, cs) ← field 2 1 12 cs
  let cs ← separator '-' cs
  let (day, cs) ← field 2 1 31 cs
  let cs ← match cs with
    | c :: rest => if c == 'T' || c == 't' || c == ' ' then some rest else none
    | [] => none
  let (hour, cs) ← field 2 0 23 cs
  let cs ← separator ':' cs
  let (minute, cs) ← field 2 0 59 cs
  let cs ← separator ':' cs
  let (second, cs) ← field 2 0 60 cs
  let (nanos, cs) ← fractionField cs
  let (offset, cs) ← offsetField cs
  let leap := second == 60
  let clock : Int := (hour * 3600 + minute * 60 + (if leap then 59 else second) : Nat)
  let days := daysOfDate year month day
  let seconds := days * 86400 + clock - offset
  let nanos := if leap then nanos + 1000000000 else nanos
  if !(dropBlank cs).isEmpty || daysInMonth year month < day || !inCalendar days then none
  else if valid : Valid seconds nanos then some { seconds, nanos, valid }
  else none

def ofText? (s : String) : Option Moment :=
  ofChars? s.toList

end Moment

end CodeAssist
