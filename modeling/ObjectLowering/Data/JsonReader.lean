/-
  Reading JSON.

  The reader goes from the leaves up: blanks, numbers, texts, then nested
  values.  A value that is read returns what follows it; a document is a
  value with nothing but blanks behind it.
-/
import ObjectLowering.Data.Value
import ObjectLowering.Text.Hex

namespace ObjectLowering.Data.Json

/-- The blanks between tokens. -/
def isSpace (c : Char) : Bool := c == ' ' || c == '\t' || c == '\n' || c == '\r'

/-- What follows leading blanks. -/
def skip (cs : List Char) : List Char := cs.dropWhile isSpace

/-- An ASCII digit. -/
def isDigit (c : Char) : Bool := '0' ≤ c && c ≤ '9'

/-- The number that a run of decimal digits denotes. -/
def natOfDigits (ds : List Char) : Nat := ds.foldl (fun n d => 10 * n + (d.toNat - '0'.toNat)) 0

/-! ## Numbers -/

/-- The digits after a decimal point, if there is one: at least one digit has to follow. -/
def readFraction : List Char → Option (List Char × List Char)
  | '.' :: rest =>
    let ds := rest.takeWhile isDigit
    if ds.isEmpty then none else some (ds, rest.dropWhile isDigit)
  | cs => some ([], cs)

/-- The digits of an exponent with their sign. -/
def readExponentDigits (isNegative : Bool) (cs : List Char) : Option (Option Int × List Char) :=
  let ds := cs.takeWhile isDigit
  if ds.isEmpty then none
  else
    let n : Int := natOfDigits ds
    some (some (if isNegative then -n else n), cs.dropWhile isDigit)

/-- The exponent of a number, if there is one. -/
def readExponent : List Char → Option (Option Int × List Char)
  | 'e' :: '-' :: rest | 'E' :: '-' :: rest => readExponentDigits true rest
  | 'e' :: '+' :: rest | 'E' :: '+' :: rest => readExponentDigits false rest
  | 'e' :: rest | 'E' :: rest => readExponentDigits false rest
  | cs => some (none, cs)

/-- A number as it is written. -/
structure Numeral extends Decimal where
  /-- There is neither a fraction nor an exponent. -/
  isWhole : Bool

/-- A number as a fraction. -/
def Numeral.fraction (n : Numeral) : Value := .real (.finite n.toDecimal)

/-- A number as an integer if it is written as one; no integer is a negative zero. -/
def Numeral.exact (n : Numeral) : Value :=
  if !n.isWhole ∨ (n.isNegative ∧ n.digits = 0) then n.fraction
  else .int (if n.isNegative then -n.digits else n.digits)

/-- A number behind its sign. No digit may follow a leading zero. -/
def readUnsigned (isNegative : Bool) (cs : List Char) : Option (Numeral × List Char) := do
  let whole := cs.takeWhile isDigit
  if whole.isEmpty || (whole.head? == some '0' && 1 < whole.length) then none
  let (fraction, rest) ← readFraction (cs.dropWhile isDigit)
  let (exponent, rest) ← readExponent rest
  some ({
    isNegative
    digits := natOfDigits (whole ++ fraction)
    exponent := exponent.getD 0 - fraction.length
    isWhole := fraction.isEmpty && exponent.isNone }, rest)

/-- A number with an optional minus sign. -/
def readNumber : List Char → Option (Numeral × List Char)
  | '-' :: rest => readUnsigned true rest
  | cs => readUnsigned false cs

/-! ## Texts -/

/-- The number of four hexadecimal digits. -/
def hex4 (a b c d : Char) : Option Nat := do
  let a ← Text.hexValue? a
  let b ← Text.hexValue? b
  let c ← Text.hexValue? c
  let d ← Text.hexValue? d
  some (((a * 16 + b) * 16 + c) * 16 + d)

/-- The character of a one-letter escape. -/
def escaped? : Char → Option Char
  | '"' => some '"'
  | '\\' => some '\\'
  | '/' => some '/'
  | 'b' => some '\x08'
  | 'f' => some '\x0c'
  | 'n' => some '\n'
  | 'r' => some '\r'
  | 't' => some '\t'
  | _ => none

/-- The code units of a text up to its closing quote, behind those already read, last first; an
    escape may give half of a pair. -/
def readUnits (read : List Nat) : List Char → Option (List Nat × List Char)
  | '"' :: rest => some (read, rest)
  | '\\' :: 'u' :: a :: b :: c :: d :: rest =>
    match hex4 a b c d with
    | some n => readUnits (n :: read) rest
    | none => none
  | '\\' :: c :: rest =>
    match escaped? c with
    | some c => readUnits (c.toNat :: read) rest
    | none => none
  | c :: rest => if c.toNat < 0x20 then none else readUnits (c.toNat :: read) rest
  | [] => none

/-- The first half of a pair. -/
def isHighHalf (u : Nat) : Bool := 0xD800 ≤ u && u < 0xDC00

/-- The second half of a pair. -/
def isLowHalf (u : Nat) : Bool := 0xDC00 ≤ u && u < 0xE000

/-- The characters of code units, given last unit first, in front of `tail`. Halves of a pair are
    joined; a half that stands alone becomes the replacement character. -/
def joinUnits (tail : List Char) : List Nat → List Char
  | [] => tail
  | [u] => (if isHighHalf u || isLowHalf u then '\uFFFD' else Char.ofNat u) :: tail
  | v :: u :: rest =>
    if isHighHalf u && isLowHalf v then
      joinUnits (Char.ofNat (0x10000 + (u - 0xD800) * 0x400 + (v - 0xDC00)) :: tail) rest
    else if isHighHalf v || isLowHalf v then joinUnits ('\uFFFD' :: tail) (u :: rest)
    else joinUnits (Char.ofNat v :: tail) (u :: rest)

/-- A text behind its opening quote. -/
def readText (cs : List Char) : Option (String × List Char) :=
  (readUnits [] cs).map fun (us, rest) => (String.ofList (joinUnits [] us), rest)

/-! ## Values -/

/-- The rest of the input behind a literal. -/
def expect? : List Char → List Char → Option (List Char)
  | [], cs => some cs
  | l :: ls, c :: cs => if l = c then expect? ls cs else none
  | _ :: _, [] => none

/-- How numbers are understood. -/
abbrev NumberRule := Numeral → Value

mutual

/-- A value behind blanks; `fuel` bounds the number of nested steps. -/
def readValue (number : NumberRule) : Nat → List Char → Option (Value × List Char)
  | 0, _ => none
  | fuel + 1, cs =>
    match skip cs with
    | '{' :: rest =>
      match skip rest with
      | '}' :: rest => some (.record [], rest)
      | rest => (readFields number fuel rest).map fun (fs, rest) => (.record fs, rest)
    | '[' :: rest =>
      match skip rest with
      | ']' :: rest => some (.list [], rest)
      | rest => (readItems number fuel rest).map fun (vs, rest) => (.list vs, rest)
    | '"' :: rest => (readText rest).map fun (s, rest) => (.text s, rest)
    | 't' :: rest => (expect? ['r', 'u', 'e'] rest).map fun rest => (.bool true, rest)
    | 'f' :: rest => (expect? ['a', 'l', 's', 'e'] rest).map fun rest => (.bool false, rest)
    | 'n' :: rest => (expect? ['u', 'l', 'l'] rest).map fun rest => (.null, rest)
    | rest => (readNumber rest).map fun (n, rest) => (number n, rest)

/-- The items of a list up to its closing bracket. -/
def readItems (number : NumberRule) : Nat → List Char → Option (List Value × List Char)
  | 0, _ => none
  | fuel + 1, cs =>
    match readValue number fuel cs with
    | none => none
    | some (v, rest) =>
      match skip rest with
      | ']' :: rest => some ([v], rest)
      | ',' :: rest => (readItems number fuel rest).map fun (vs, rest) => (v :: vs, rest)
      | _ => none

/-- The fields of a record up to its closing brace. -/
def readFields (number : NumberRule) : Nat → List Char → Option (List (String × Value) × List Char)
  | 0, _ => none
  | fuel + 1, cs =>
    match skip cs with
    | '"' :: rest =>
      match readText rest with
      | none => none
      | some (name, rest) =>
        match skip rest with
        | ':' :: rest =>
          match readValue number fuel rest with
          | none => none
          | some (v, rest) =>
            match skip rest with
            | '}' :: rest => some ([(name, v)], rest)
            | ',' :: rest =>
              (readFields number fuel rest).map fun (fs, rest) => ((name, v) :: fs, rest)
            | _ => none
        | _ => none
    | _ => none

end

/-- Reads a whole document. Every nested step consumes a character, so the length of the input
    is fuel enough. -/
def readWith (number : NumberRule) (s : String) : Option Value :=
  let cs := s.toList
  match readValue number (cs.length + 1) cs with
  | some (v, rest) => if (skip rest).isEmpty then some v else none
  | none => none

/-- Reads a whole document, integers as such. -/
def read (s : String) : Option Value := readWith Numeral.exact s

/-- Reads a whole document, every number as a fraction. -/
def readFractions (s : String) : Option Value := readWith Numeral.fraction s

end ObjectLowering.Data.Json
