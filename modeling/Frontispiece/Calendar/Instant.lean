import Frontispiece.Text.Blank
import Frontispiece.Text.Digits

/-!
# Points in time

An `Instant` counts seconds from the start of 1970, in the Gregorian calendar without leap seconds;
a leap second lies in the nanoseconds of the second before it.

* `Date.ofDays` and `Date.days` turn days into dates and back.
* `Instant.stamp` writes an instant to the millisecond, `Date.text` a date.
* `Instant.read?` reads the strict notation of date, time and offset, `Instant.readLoose?` one that
  allows blanks between its parts.
-/

set_option autoImplicit false

namespace Frontispiece
namespace Calendar

/-! ## Dates

Days are counted from the start of 1970, in both directions. -/

/-- A day of the calendar. -/
structure Date where
  year : Int
  month : Nat
  day : Nat
  deriving DecidableEq, Repr

namespace Date

/-- The date of a number of days from the start of 1970.  Years are counted from March on, so that
the day that only some years have comes last. -/
def ofDays (days : Int) : Date :=
  let z := days + 719468
  let era := z.fdiv 146097
  let dayOfEra := (z - era * 146097).toNat
  let yearOfEra :=
    (dayOfEra - dayOfEra / 1460 + dayOfEra / 36524 - dayOfEra / 146096) / 365
  let dayOfYear := dayOfEra - (365 * yearOfEra + yearOfEra / 4 - yearOfEra / 100)
  let march := (5 * dayOfYear + 2) / 153
  let day := dayOfYear - (153 * march + 2) / 5 + 1
  let month := if march < 10 then march + 3 else march - 9
  let year := (yearOfEra : Int) + era * 400
  ⟨if month ≤ 2 then year + 1 else year, month, day⟩

/-- The number of days from the start of 1970. -/
def days (d : Date) : Int :=
  let year := if d.month ≤ 2 then d.year - 1 else d.year
  let era := year.fdiv 400
  let yearOfEra := (year - era * 400).toNat
  let march := if d.month ≤ 2 then d.month + 9 else d.month - 3
  let dayOfYear := (153 * march + 2) / 5 + d.day - 1
  let dayOfEra := yearOfEra * 365 + yearOfEra / 4 - yearOfEra / 100 + dayOfYear
  era * 146097 + (dayOfEra : Int) - 719468

/-- Whether there is such a day. -/
def isValid (d : Date) : Bool :=
  1 ≤ d.month && d.month ≤ 12 && 1 ≤ d.day && d.day ≤ 31 && ofDays d.days == d

end Date

/-- A number with leading zeros. -/
def padded (width n : Nat) : String :=
  let digits := toString n
  "".pushn '0' (width - digits.length) ++ digits

/-- A year: four digits, or a sign and at least four. -/
def yearText (year : Int) : String :=
  if year < 0 then "-" ++ padded 4 year.natAbs
  else if year ≤ 9999 then padded 4 year.natAbs
  else "+" ++ padded 4 year.natAbs

/-- A date: year, month and day. -/
def Date.text (d : Date) : String :=
  yearText d.year ++ "-" ++ padded 2 d.month ++ "-" ++ padded 2 d.day

/-! ## Instants

An instant is kept in seconds and nanoseconds, and shown to the millisecond. -/

/-- A point in time. -/
structure Instant where
  seconds : Int
  nanoseconds : Nat
  deriving DecidableEq, Repr

namespace Instant

/-- The date of an instant. -/
def date (t : Instant) : Date := .ofDays (t.seconds.fdiv 86400)

/-- An instant to the millisecond. -/
def stamp (t : Instant) : String :=
  let second := (t.seconds.fmod 86400).toNat
  let leap := t.nanoseconds / 1000000000
  t.date.text ++ "T" ++ padded 2 (second / 3600) ++ ":" ++ padded 2 (second / 60 % 60) ++ ":"
    ++ padded 2 (second % 60 + leap)
    ++ "." ++ padded 3 (t.nanoseconds % 1000000000 / 1000000) ++ "Z"

/-- The instant of a date and a time of day, at an offset of seconds.  The second 60 is a leap
second. -/
def of? (d : Date) (hour minute second nanoseconds : Nat) (offset : Int) : Option Instant :=
  if d.isValid && d.year.natAbs < 262143 && hour < 24 && minute < 60 && second ≤ 60
      && offset.natAbs < 86400 then
    let leap := second / 60
    let time : Nat := hour * 3600 + minute * 60 + (second - leap)
    some ⟨d.days * 86400 + time - offset, nanoseconds + leap * 1000000000⟩
  else none

end Instant

/-! ## Reading

There are two notations: a strict one, and a loose one that allows blanks between its parts and
fewer digits in them. -/

/-- A number of at least `least` and at most `most` digits. -/
def digits? (least most : Nat) (s : List Char) : Option (Nat × List Char) :=
  let digits := (s.take most).takeWhile Char.isDigit
  if digits.length < least then none
  else (Text.numeral? 10 digits).map (·, s.drop digits.length)

/-- The rest after a character. -/
def after? (accepts : Char → Bool) : List Char → Option (List Char)
  | c :: rest => if accepts c then some rest else none
  | [] => none

/-- Nanoseconds after a point; digits beyond the ninth do not count. -/
def fraction? (s : List Char) : Option (Nat × List Char) :=
  match s with
  | '.' :: rest => do
    let (n, after) ← digits? 1 9 rest
    some (n * Nat.pow 10 (9 - (rest.length - after.length)), after.dropWhile Char.isDigit)
  | s => some (0, s)

/-- An offset: a letter for none, or a sign, hours and minutes with a separator between them. -/
def offset? (separator : List Char → Option (List Char)) (s : List Char) :
    Option (Int × List Char) :=
  match s with
  | [] => none
  | c :: rest =>
    if c == 'Z' || c == 'z' then some (0, rest)
    else if c == '+' || c == '-' || c == '−' then do
      let (hours, rest) ← digits? 2 2 rest
      let (minutes, rest) ← digits? 2 2 (← separator rest)
      if minutes < 60 then
        let seconds : Int := (hours * 60 + minutes) * 60
        some (if c == '+' then seconds else -seconds, rest)
      else none
    else none

/-- Whether a character stands between date and time. -/
def isDateEnd (c : Char) : Bool := c == 'T' || c == 't' || c == ' '

/-- An instant in the strict notation. -/
def Instant.read? (s : List Char) : Option Instant := do
  let (year, s) ← digits? 4 4 s
  let (month, s) ← digits? 2 2 (← after? (· == '-') s)
  let (day, s) ← digits? 2 2 (← after? (· == '-') s)
  let (hour, s) ← digits? 2 2 (← after? isDateEnd s)
  let (minute, s) ← digits? 2 2 (← after? (· == ':') s)
  let (second, s) ← digits? 2 2 (← after? (· == ':') s)
  let (nanoseconds, s) ← fraction? s
  let (offset, s) ← offset? (after? (· == ':')) s
  if s.isEmpty then of? ⟨year, month, day⟩ hour minute second nanoseconds offset else none

/-- The text after blanks. -/
def skipBlanks (s : List Char) : List Char := s.dropWhile Text.isBlank

/-- A year with a sign, or of at most four digits. -/
def signedYear? (s : List Char) : Option (Int × List Char) :=
  match s with
  | '-' :: rest => (digits? 1 rest.length rest).map fun (n, rest) => (-(n : Int), rest)
  | '+' :: rest => (digits? 1 rest.length rest).map fun (n, rest) => ((n : Int), rest)
  | s => (digits? 1 4 s).map fun (n, rest) => ((n : Int), rest)

/-- An instant in a notation with blanks between its parts, and with one or two digits. -/
def Instant.readLoose? (s : List Char) : Option Instant := do
  let number := fun (s : List Char) => digits? 1 2 (skipBlanks s)
  let mark := fun (c : Char) (s : List Char) => after? (· == c) (skipBlanks s)
  let (year, s) ← signedYear? (skipBlanks s)
  let (month, s) ← number (← mark '-' s)
  let (day, s) ← number (← mark '-' s)
  let (hour, s) ← number (← after? isDateEnd s)
  let (minute, s) ← number (← mark ':' s)
  let (second, s) ← number (← mark ':' s)
  let (nanoseconds, s) ← fraction? s
  let s := skipBlanks s
  let (offset, s) ←
    if (s.take 3).map Char.toUpper == ['U', 'T', 'C'] then some ((0 : Int), s.drop 3)
    else offset? (fun s => some (s.dropWhile fun c => c == ':' || Text.isBlank c)) s
  if (skipBlanks s).isEmpty then of? ⟨year, month, day⟩ hour minute second nanoseconds offset
  else none

end Calendar
end Frontispiece
