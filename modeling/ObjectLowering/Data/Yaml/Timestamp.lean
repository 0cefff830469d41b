/-
  Dates and times in plain scalars.

  A date is a year of four digits, a month and a day.  A time may follow it,
  behind a `T` with a zone or behind blanks without one.
-/
import ObjectLowering.Data.Calendar
import ObjectLowering.Text.Numeral

namespace ObjectLowering.Data.Yaml.Timestamp

/-- Reads a number of one or two digits. -/
def number? (cs : List Char) : Option (Nat × List Char) :=
  let ds := (cs.take 2).takeWhile Char.isDigit
  (Text.digitsInBase? 10 ds).map fun n => (n, cs.drop ds.length)

/-- What follows a character that has to come first. -/
def behind? (c : Char) : List Char → Option (List Char)
  | [] => none
  | x :: rest => if x == c then some rest else none

/-- Passes a fraction of a second, if there is one. -/
def skipFraction : List Char → List Char
  | mark :: d :: rest =>
    if (mark == '.' || mark == ',') && d.isDigit then rest.dropWhile Char.isDigit
    else mark :: d :: rest
  | cs => cs

/-- Reads a time of day up to what follows it. -/
def time? (cs : List Char) : Option (List Char) := do
  let (hour, cs) ← number? cs
  let (minute, cs) ← number? (← behind? ':' cs)
  let (second, cs) ← number? (← behind? ':' cs)
  if Calendar.isTime hour minute second then some (skipFraction cs) else none

/-- A zone: `Z`, or a distance in hours and minutes. -/
def isZone : List Char → Bool
  | ['Z'] => true
  | [sign, a, b, ':', c, d] =>
    match Text.digitsInBase? 10 [a, b], Text.digitsInBase? 10 [c, d] with
    | some hours, some minutes => (sign == '+' || sign == '-') && hours ≤ 24 && minutes ≤ 60
    | _, _ => false
  | _ => false

/-- What may follow a date: nothing, or a time. -/
def isTail : List Char → Bool
  | [] => true
  | c :: rest =>
    if c == 'T' || c == 't' then ((time? rest).map isZone).getD false
    else if c == ' ' then ((time? (rest.dropWhile (· == ' '))).map List.isEmpty).getD false
    else false

/-- The text is a date, perhaps with a time. -/
def isTimestamp (cs : List Char) : Bool :=
  let year := cs.takeWhile Char.isDigit
  let tail? := do
    let (month, rest) ← number? (← behind? '-' (cs.drop year.length))
    let (day, rest) ← number? (← behind? '-' rest)
    if Calendar.isDay ((Text.digitsInBase? 10 year).getD 0) month day then some rest else none
  year.length == 4 && (tail?.map isTail).getD false

end ObjectLowering.Data.Yaml.Timestamp
