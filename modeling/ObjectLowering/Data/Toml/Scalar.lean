/-
  Bare values of TOML: truth values, integers, fractions, dates and times.

  A reader takes the longest front of the input that can belong to such a
  value, and all of it has to make sense.
-/
import ObjectLowering.Data.Calendar
import ObjectLowering.Data.Decimal
import ObjectLowering.Data.JsonReader
import ObjectLowering.Text.Numeral

namespace ObjectLowering.Data.Toml

/-! ## Numbers -/

/-- The digits of a number without the single underscores between them. -/
def plainDigits? (ds : List Char) : Option (List Char) :=
  if ds.head? == some '_' ∨ !Text.underscoresFit ds then none else some (ds.filter (· != '_'))

/-- The number without its sign, and whether it is negative. -/
def splitSign : List Char → Bool × List Char
  | '-' :: cs => (true, cs)
  | '+' :: cs => (false, cs)
  | cs => (false, cs)

/-- An integer in base ten, without zeros in front. -/
def integer? (cs : List Char) : Option Value := do
  let ds ← plainDigits? (splitSign cs).2
  if ds.head? == some '0' && 1 < ds.length then none
  let sign := if (splitSign cs).1 then ['-'] else []
  (Text.signed64? (Text.digitsInBase? 10) (sign ++ ds)).map .int

/-- An integer behind the mark of its base. -/
def integerInBase? (base : Nat) (cs : List Char) : Option Value := do
  let n ← Text.digitsInBase? base (← plainDigits? cs)
  if n < Text.signedLimit then some (.int n) else none

/-- A decimal fraction; every underscore has to separate two digits. -/
def fraction? (cs : List Char) : Option Value := do
  if !Text.underscoresSeparate false cs then none
  let (isNegative, ds) := splitSign (cs.filter (· != '_'))
  match Json.readUnsigned isNegative ds with
  | some (n, []) => if n.toBinary?.isSome then some n.fraction else none
  | _ => none

/-- A number that is named, with its sign. -/
def namedNumber? (cs : List Char) : Option Value :=
  match splitSign cs with
  | (isNegative, ['i', 'n', 'f']) => some (.real (.infinite isNegative))
  | (_, ['n', 'a', 'n']) => some (.real .undefined)
  | _ => none

/-- A character of a number in base ten. -/
def isNumberChar (c : Char) : Bool := c.isDigit || ['+', '-', '_', '.', 'e', 'E'].contains c

/-- The base of a mark behind a zero. -/
def markedBase? : List Char → Option (Nat × List Char)
  | '0' :: 'x' :: rest => some (16, rest)
  | '0' :: 'o' :: rest => some (8, rest)
  | '0' :: 'b' :: rest => some (2, rest)
  | _ => none

/-- Reads a number. -/
def readNumber? (cs : List Char) : Option (Value × List Char) :=
  match markedBase? cs with
  | some (base, rest) =>
    let ds := rest.takeWhile (Text.isNumeral base)
    (integerInBase? base ds).map fun v => (v, rest.drop ds.length)
  | none =>
    let front := cs.takeWhile isNumberChar
    let rest := cs.drop front.length
    match rest.head? with
    | some 'i' | some 'n' =>
      (namedNumber? (front ++ rest.take 3)).map fun v => (v, rest.drop 3)
    | _ =>
      let isFraction := front.any fun c => c == '.' || c == 'e' || c == 'E'
      (if isFraction then fraction? front else integer? front).map fun v => (v, rest)

/-! ## Dates and times -/

/-- The number of two digits. -/
def twoDigits? (a b : Char) : Option Nat := Text.digitsInBase? 10 [a, b]

/-- What follows a date. -/
def behindDate? : List Char → Option (List Char)
  | y₁ :: y₂ :: y₃ :: y₄ :: '-' :: m₁ :: m₂ :: '-' :: d₁ :: d₂ :: rest => do
    let year ← Text.digitsInBase? 10 [y₁, y₂, y₃, y₄]
    if Calendar.isDay year (← twoDigits? m₁ m₂) (← twoDigits? d₁ d₂) then some rest else none
  | _ => none

/-- What follows a time of day, which may be a leap second and may have a fraction. -/
def behindTime? : List Char → Option (List Char)
  | h₁ :: h₂ :: ':' :: m₁ :: m₂ :: ':' :: s₁ :: s₂ :: rest => do
    let hour ← twoDigits? h₁ h₂
    let minute ← twoDigits? m₁ m₂
    let second ← twoDigits? s₁ s₂
    if !Calendar.isTime hour minute 0 ∨ 60 < second then none
    match rest with
    | '.' :: rest =>
      if (rest.head?.map Char.isDigit).getD false then some (rest.dropWhile Char.isDigit) else none
    | rest => some rest
  | _ => none

/-- A zone, or none. -/
def isZone : List Char → Bool
  | [] | ['Z'] | ['z'] => true
  | [sign, h₁, h₂, ':', m₁, m₂] =>
    match twoDigits? h₁ h₂, twoDigits? m₁ m₂ with
    | some hours, some minutes => (sign == '+' || sign == '-') && hours < 24 && minutes < 60
    | _, _ => false
  | _ => false

/-- The text is a date, a time of day, or both with or without a zone. -/
def isDate (cs : List Char) : Bool :=
  if cs[2]? == some ':' then behindTime? cs == some []
  else match behindDate? cs with
    | none => false
    | some [] => true
    | some (mark :: rest) =>
      (mark == 'T' || mark == 't' || mark == ' ') && ((behindTime? rest).map isZone).getD false

/-- A character of a date or time. -/
def isDateChar (c : Char) : Bool :=
  c.isDigit || ['T', 't', ':', '.', '+', '-', 'Z', 'z'].contains c

/-- A date or time starts here: two digits and a colon, or four digits and a hyphen. -/
def startsDate (cs : List Char) : Bool :=
  let ds := cs.takeWhile Char.isDigit
  (ds.length == 2 && cs[2]? == some ':') || (ds.length == 4 && cs[4]? == some '-')

/-- Reads a date or time; one blank may stand between them. -/
def readDate? (cs : List Char) : Option (Value × List Char) :=
  let front := cs.takeWhile isDateChar
  let rest := cs.drop front.length
  let tail := match rest with
    | ' ' :: d :: more => if d.isDigit then ' ' :: (d :: more).takeWhile isDateChar else []
    | _ => []
  if isDate (front ++ tail) then
    some (.date (String.ofList (front ++ tail)), rest.drop tail.length)
  else none

/-! ## Words -/

/-- Reads a value that is neither quoted nor made of others. -/
def readScalar? : List Char → Option (Value × List Char)
  | 't' :: rest => (Json.expect? ['r', 'u', 'e'] rest).map fun rest => (.bool true, rest)
  | 'f' :: rest => (Json.expect? ['a', 'l', 's', 'e'] rest).map fun rest => (.bool false, rest)
  | cs => if startsDate cs then readDate? cs else readNumber? cs

end ObjectLowering.Data.Toml
