/-
  Data values: what documents of the data formats hold.
-/

namespace ObjectLowering.Data

/-- A decimal fraction: `digits · 10 ^ exponent`, with a sign. -/
structure Decimal where
  isNegative : Bool := false
  digits : Nat
  exponent : Int
deriving DecidableEq, Repr

/-- A number with a fraction: a decimal as it is written, or none of them. -/
inductive Floating where
  | finite (d : Decimal)
  | infinite (isNegative : Bool)
  | undefined
deriving DecidableEq, Repr

/-- A data value. The fields of a record keep their order, and a name may be repeated. -/
inductive Value where
  | null
  | bool (b : Bool)
  | int (n : Int)
  | real (x : Floating)
  | text (s : String)
  /-- A date or a time of day, as it is written. -/
  | date (s : String)
  | list (items : List Value)
  | record (fields : List (String × Value))

namespace Value

/-- The fields of a record; any other value has none. -/
def fields : Value → List (String × Value)
  | record fs => fs
  | _ => []

/-- The items of a list; any other value has none. -/
def items : Value → List Value
  | list vs => vs
  | _ => []

/-- The last field with this name, `null` if there is none. -/
def get (v : Value) (name : String) : Value :=
  (v.fields.reverse.lookup name).getD null

/-- The text of a text value, empty for any other. -/
def asText : Value → String
  | text s => s
  | _ => ""

/-- The truth value of a boolean, false for any other. -/
def asBool : Value → Bool
  | bool b => b
  | _ => false

/-- The number of an integer, zero for any other. -/
def asInt : Value → Int
  | int n => n
  | _ => 0

/-- The texts of a list. -/
def asTexts (v : Value) : List String := v.items.map asText

/-- A list of texts. -/
def texts (ts : List String) : Value := list (ts.map text)

/-- The value is `null`. -/
def isNull : Value → Bool
  | null => true
  | _ => false

end Value

end ObjectLowering.Data
