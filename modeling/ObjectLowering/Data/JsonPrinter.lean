/-
  Writing JSON, on one line or indented.

  Texts escape `<`, `>` and `&` as well, so that a written document never
  holds a comment marker of an enclosing page.
-/
import ObjectLowering.Data.Value
import ObjectLowering.Text.Hex

namespace ObjectLowering.Data.Json

/-- How one character stands inside a text. -/
def printedChar (c : Char) : List Char :=
  if c = '"' then ['\\', '"']
  else if c = '\\' then ['\\', '\\']
  else if c = '\x08' then ['\\', 'b']
  else if c = '\x0c' then ['\\', 'f']
  else if c = '\n' then ['\\', 'n']
  else if c = '\r' then ['\\', 'r']
  else if c = '\t' then ['\\', 't']
  else if c.toNat < 0x20 ∨ c = '<' ∨ c = '>' ∨ c = '&' ∨ c = '\u2028' ∨ c = '\u2029' then
    '\\' :: 'u' :: Text.hexDigits Text.hexDigit 4 c.toNat
  else [c]

/-- A text between quotes. -/
def printText (s : String) : String :=
  String.ofList ('"' :: s.toList.flatMap printedChar ++ ['"'])

/-- A decimal fraction in exponent form; numbers that are none cannot be written. -/
def printFloating : Floating → String
  | .finite d =>
    (if d.isNegative then "-" else "") ++ toString d.digits ++ "e" ++ toString d.exponent
  | .infinite _ | .undefined => "null"

mutual

/-- A value on one line. -/
def print : Value → String
  | .null => "null"
  | .bool b => if b then "true" else "false"
  | .int n => toString n
  | .real x => printFloating x
  | .text s | .date s => printText s
  | .list vs => "[" ++ String.intercalate "," (printItems vs) ++ "]"
  | .record fs => "\x7b" ++ String.intercalate "," (printFields fs) ++ "\x7d"

/-- The items of a list. -/
def printItems : List Value → List String
  | [] => []
  | v :: vs => print v :: printItems vs

/-- The fields of a record. -/
def printFields : List (String × Value) → List String
  | [] => []
  | (name, v) :: fs => (printText name ++ ":" ++ print v) :: printFields fs

end

/-- Parts between brackets, each on a line of its own; `indent` is that of the closing bracket. -/
def bracketed (opening closing indent : String) (parts : List String) : String :=
  if parts.isEmpty then opening ++ closing
  else opening ++ "\n" ++
    String.intercalate ",\n" (parts.map fun p => indent ++ "  " ++ p) ++
    "\n" ++ indent ++ closing

mutual

/-- A value with every item and field on a line of its own, two blanks per level. -/
def printIndented (indent : String) : Value → String
  | .list vs => bracketed "[" "]" indent (printIndentedItems (indent ++ "  ") vs)
  | .record fs => bracketed "\x7b" "\x7d" indent (printIndentedFields (indent ++ "  ") fs)
  | .null => "null"
  | .bool b => if b then "true" else "false"
  | .int n => toString n
  | .real x => printFloating x
  | .text s | .date s => printText s

/-- The items of an indented list. -/
def printIndentedItems (indent : String) : List Value → List String
  | [] => []
  | v :: vs => printIndented indent v :: printIndentedItems indent vs

/-- The fields of an indented record. -/
def printIndentedFields (indent : String) : List (String × Value) → List String
  | [] => []
  | (name, v) :: fs =>
    (printText name ++ ": " ++ printIndented indent v) :: printIndentedFields indent fs

end

end ObjectLowering.Data.Json
