import JasmineConversion.Host.Yaml.Flaw

/-! # Points in time

A point in time is a date, or a date with a time of the day, which may have an offset from the
universal time. The parts of it have to be in their ranges.
-/

namespace JasmineConversion.Yaml

open Text

/-- A time of the day, with its offset from the universal time in minutes. -/
structure TimeOfDay where
  hour : Nat
  minute : Nat
  second : Nat
  offset : Int := 0

/-- A date, perhaps with a time of the day. `narrow` tells that the month or the day is written
with one digit. -/
structure Moment where
  year : Nat
  month : Nat
  day : Nat
  time : Option TimeOfDay := none
  narrow : Bool := false

namespace Moment

/-- The number that the digits in front of a text denote, and the text behind them. There are at
least and at most so many. -/
def digits? (least most : Nat) (text : Text) : Option (Nat × Text) :=
  let digits := (text.take most).takeWhile Char.isDigit
  if least ≤ digits.length then some (digitsNumber 10 digits, text.drop digits.length) else none

/-- The offset in minutes that ends a text. White space may come before it. -/
def offset? (text : Text) : Option Int :=
  match text, text.dropWhile isIndent with
  | [], _ => some 0
  | _, ['Z'] => some 0
  | _, mark :: rest =>
    if mark == '+' || mark == '-' then do
      let (hours, rest) ← digits? 1 2 rest
      let minutes ← match rest with
        | [] => some 0
        | ':' :: rest =>
          match digits? 2 2 rest with
          | some (minutes, []) => some minutes
          | _ => none
        | _ => none
      let size : Int := 60 * hours + minutes
      return if mark == '-' then -size else size
    else none
  | _, [] => none

/-- The time of the day that a text gives. -/
def time? (text : Text) : Option TimeOfDay := do
  let (hour, rest) ← digits? 1 2 text
  let (minute, rest) ← digits? 2 2 (← after? [':'] rest)
  let (second, rest) ← digits? 2 2 (← after? [':'] rest)
  let rest := match rest with
    | '.' :: fraction => fraction.dropWhile Char.isDigit
    | rest => rest
  return { hour, minute, second, offset := ← offset? rest }

/-- The point in time that a text gives. -/
def parse? (text : Text) : Option Moment := do
  let (year, rest) ← digits? 4 4 text
  let afterYear ← after? ['-'] rest
  let (month, rest) ← digits? 1 2 afterYear
  let afterMonth ← after? ['-'] rest
  let (day, rest) ← digits? 1 2 afterMonth
  let narrow := afterYear.length - afterMonth.length < 3 || afterMonth.length - rest.length < 2
  let moment : Moment := { year, month, day, narrow }
  match rest with
  | [] => return moment
  | c :: after =>
    if c == 'T' || c == 't' then return { moment with time := some (← time? after) }
    else if isIndent c then
      return { moment with time := some (← time? (after.dropWhile isIndent)) }
    else none

/-- Whether a point in time needs no tag: a date without a time has to have its full width. -/
def isPlain (moment : Moment) : Bool :=
  moment.time.isSome || !moment.narrow

/-- Whether a year has an additional day. -/
def isLeap (year : Nat) : Bool :=
  year % 4 == 0 && (year % 100 != 0 || year % 400 == 0)

/-- The number of days in a month. -/
def daysIn (year month : Nat) : Nat :=
  if month = 2 then if isLeap year then 29 else 28
  else if [4, 6, 9, 11].contains month then 30
  else 31

/-- The first fault of a date. -/
def dateFault? (moment : Moment) : Option ValueFault :=
  if moment.year = 0 then some (.outOfRange .year)
  else if moment.month = 0 || moment.month > 12 then some (.outOfRange .month)
  else if moment.day = 0 || moment.day > daysIn moment.year moment.month then
    some (.outOfRange .day)
  else none

/-- The first fault of a time of the day. -/
def timeFault? (time : TimeOfDay) : Option ValueFault :=
  if time.hour > 23 then some (.outOfRange .hour)
  else if time.minute > 59 then some (.outOfRange .minute)
  else if time.second > 59 then some (.outOfRange .second)
  else none

/-- The first fault of a point in time. The offset has to be less than a day. -/
def fault? (moment : Moment) : Option ValueFault :=
  match moment.time with
  | none => moment.dateFault?
  | some time =>
    if time.offset.natAbs ≥ 1440 then some (.offsetTooLarge time.offset)
    else moment.dateFault?.or (timeFault? time)

end Moment

end JasmineConversion.Yaml
