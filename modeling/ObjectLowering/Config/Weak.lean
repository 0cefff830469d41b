/-
  Weak conversion of data values: a setting takes its type, whatever type the
  value has that is given for it.
-/
import ObjectLowering.Data.Decimal
import ObjectLowering.Data.Value
import ObjectLowering.Text.Numeral
import ObjectLowering.Text.Parts

namespace ObjectLowering.Config.Weak

open Data

/-- The words for a truth value. -/
def readBool? (s : String) : Option Bool :=
  if ["1", "t", "T", "TRUE", "true", "True"].contains s then some true
  else if ["0", "f", "F", "FALSE", "false", "False"].contains s then some false
  else none

/-! ## Conversions -/

/-- A text. -/
def text : Value → Option String
  | .text s => some s
  | .bool b => some (if b then "1" else "0")
  | .int n => some (toString n)
  | .real x => some x.positional
  | .null => some ""
  | .date _ | .list _ | .record _ => none

/-- A truth value; a number is true unless it is zero. -/
def bool : Value → Option Bool
  | .bool b => some b
  | .int n => some (n != 0)
  | .real x => some (!x.isZero)
  | .text s => if s = "" then some false else readBool? s
  | .null => some false
  | .date _ | .list _ | .record _ => none

/-- An integer; a fraction is cut off, and a word of 64 bits without sign is taken for one with
    sign. -/
def int : Value → Option Int
  | .int n => some (if n < Text.signedLimit then n else n - UInt64.size)
  | .real x => some x.truncate
  | .bool b => some (if b then 1 else 0)
  | .text s => if s = "" then some 0 else Text.signed64? Text.natLiteral? s.toList
  | .null => some 0
  | .date _ | .list _ | .record _ => none

/-- A list of texts. A text is cut at its commas, and any other single value is a list of one. -/
def texts : Value → Option (List String)
  | .text s => some (if s = "" then [] else Text.splitOn ',' s)
  | .list vs => vs.mapM text
  | .record [] | .null => some []
  | v => (text v).map ([·])

end ObjectLowering.Config.Weak
