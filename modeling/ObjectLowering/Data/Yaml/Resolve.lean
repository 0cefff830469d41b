/-
  The values of YAML scalars.

  A plain scalar without a tag is what its text looks like: `plainValue`.  A
  tag of the format's own asks for one kind of value, and the scalar has to
  look like that; any other tag leaves a text.
-/
import ObjectLowering.Data.JsonReader
import ObjectLowering.Data.Yaml.Dialect
import ObjectLowering.Data.Yaml.Timestamp
import ObjectLowering.Data.Decimal
import ObjectLowering.Text.Base64
import ObjectLowering.Text.Utf8

namespace ObjectLowering.Data.Yaml

/-! ## Numbers -/

/-- An integer of 64 bits, with a sign or without. -/
def integerWith? (magnitude? : List Char → Option Nat) (cs : List Char) : Option Int :=
  match Text.signed64? magnitude? cs with
  | some n => some n
  | none => (magnitude? cs).bind fun n => if n < UInt64.size then some (n : Int) else none

/-- An integer whose sign stands behind the mark of its base. -/
def markedInteger? (bases : List (String × Nat)) (cs : List Char) : Option Int :=
  bases.findSome? fun (mark, base) =>
    let digits? := Text.digitsInBase? base
    if mark.toList.isPrefixOf cs then integerWith? digits? (cs.drop mark.length)
    else if ('-' :: mark.toList).isPrefixOf cs then
      Text.signed64? digits? ('-' :: cs.drop (mark.length + 1))
    else none

/-- A decimal fraction: digits with at most one point, and an optional exponent. -/
def unsignedReal? (isNegative : Bool) (cs : List Char) : Option Decimal := do
  let whole := cs.takeWhile Json.isDigit
  let rest := cs.dropWhile Json.isDigit
  let (fraction, rest) := match rest with
    | '.' :: r => (r.takeWhile Json.isDigit, r.dropWhile Json.isDigit)
    | r => ([], r)
  if whole.isEmpty && fraction.isEmpty then none
  let exponent ← match rest with
    | [] => some 0
    | _ => match Json.readExponent rest with
      | some (some e, []) => some e
      | _ => none
  some { isNegative, digits := Json.natOfDigits (whole ++ fraction)
         exponent := exponent - fraction.length }

/-- A decimal fraction with an optional sign, unless it is too large. -/
def real? (cs : List Char) : Option Decimal :=
  let d := match cs with
    | '-' :: cs => unsignedReal? true cs
    | '+' :: cs => unsignedReal? false cs
    | cs => unsignedReal? false cs
  d.filter fun d => d.toBinary?.isSome

/-- The number that a text stands for which starts with a digit, a sign or a point. Underscores
    mean nothing, but behind a point they have to separate digits. -/
def number? (d : Dialect) (cs : List Char) : Option Value :=
  let plain := cs.filter (· != '_')
  let real := (real? plain).map fun x => Value.real (.finite x)
  if cs.head? == some '.' then if Text.underscoresSeparate false cs then real else none
  else
    let integer := (integerWith? Text.natLiteral? plain).map Value.int
    integer <|> real <|> (markedInteger? d.bases plain).map Value.int

/-! ## Plain scalars -/

/-- The words for `null`. -/
def nullWords : List String := ["", "~", "null", "Null", "NULL"]

/-- The words for numbers that are not finite. -/
def wordNumber? (s : String) : Option Floating :=
  if [".nan", ".NaN", ".NAN"].contains s then some .undefined
  else if [".inf", ".Inf", ".INF", "+.inf", "+.Inf", "+.INF"].contains s then some (.infinite false)
  else if ["-.inf", "-.Inf", "-.INF"].contains s then some (.infinite true)
  else none

/-- What the text of a plain scalar looks like. -/
def plainValue (d : Dialect) (triesDates : Bool) (s : String) : Value :=
  if nullWords.contains s then .null
  else if d.trueWords.contains s then .bool true
  else if d.falseWords.contains s then .bool false
  else match wordNumber? s with
    | some x => .real x
    | none =>
      let cs := s.toList
      let c := cs.headD ' '
      if !(Json.isDigit c || c == '-' || c == '+' || c == '.') then .text s
      else if triesDates && Timestamp.isTimestamp cs then .date s
      else (number? d cs).getD (.text s)

/-! ## Tags -/

/-- What the tags of the format start with. -/
def tagStem : String := "tag:yaml.org,2002:"

/-- The kind of a value, as the tags of the format name it. -/
def kindName : Value → String
  | .null => "null"
  | .bool _ => "bool"
  | .int _ => "int"
  | .real _ => "float"
  | .text _ => "str"
  | .date _ => "timestamp"
  | .list _ => "seq"
  | .record _ => "map"

/-- The value of a scalar whose tag asks for a kind; an integer can stand for a fraction. -/
def valueOfKind? (d : Dialect) (kind s : String) : Option Value :=
  let v := plainValue d (kind == "timestamp") s
  if kindName v = kind then some v
  else match kind, v with
    | "float", .int n =>
      if n < Text.signedLimit then
        some (.real (.finite { isNegative := n < 0, digits := n.natAbs, exponent := 0 }))
      else none
    | _, _ => none

/-- The value of a scalar with a tag. -/
def taggedValue? (d : Dialect) (tag s : String) : Option Value :=
  match ["bool", "int", "float", "null", "timestamp"].find? fun k => tagStem ++ k == tag with
  | some kind => valueOfKind? d kind s
  | none =>
    if tag = tagStem ++ "binary" then
      (Text.base64Bytes? s).map fun bytes => .text (String.ofList (Text.lossyUtf8 bytes))
    else some (.text s)

/-- The value of a scalar. -/
def scalarValue? (d : Dialect) (tag : String) (isPlain : Bool) (s : String) : Option Value :=
  let isBare := tag = "" ∨ (tag = "!" ∧ d.ignoresLoneTag)
  let v := if isBare then some (if isPlain then plainValue d true s else .text s)
    else taggedValue? d tag s
  if d.hasDates then v
  else v.map fun
    | .date s => .text s
    | v => v

end ObjectLowering.Data.Yaml
