/-
  Keys of YAML mappings.

  A key is a scalar value.  Two keys are one if their values are equal, and
  as names of fields keys are written like the values that they are.
-/
import ObjectLowering.Data.Decimal
import ObjectLowering.Data.Yaml.Node
import ObjectLowering.Data.Yaml.Resolve

namespace ObjectLowering.Data.Yaml

/-- Two numbers are equal when they are rounded to 64 bits. -/
def sameNumber : Floating → Floating → Bool
  | .finite a, .finite b =>
    match a.toBinary?, b.toBinary? with
    | some x, some y => x == y && (a.isNegative == b.isNegative || x.mantissa == 0)
    | _, _ => false
  | .infinite a, .infinite b => a == b
  | _, _ => false

/-- Two keys are one. -/
def sameKey : Value → Value → Bool
  | .null, .null => true
  | .bool a, .bool b => a == b
  | .int a, .int b => a == b
  | .real a, .real b => sameNumber a b
  | .text a, .text b => a == b
  | _, _ => false

/-- The name of a number as a key. -/
def numberName : Floating → String
  | .infinite isNegative => if isNegative then "-.inf" else ".inf"
  | .undefined => ".nan"
  | .finite d =>
    match (Floating.finite d).general with
    | "+Inf" => ".inf"
    | "-Inf" => "-.inf"
    | s => s

/-- The name of a key; `null` has none, nor has an integer that needs 64 bits without a sign. -/
def keyName? : Value → Option String
  | .text s => some s
  | .bool b => some (if b then "true" else "false")
  | .int n => if n < Text.signedLimit then some (toString n) else none
  | .real x => some (numberName x)
  | _ => none

namespace Node

/-- The node that an alias stands for, and any other node itself. -/
def target : Node → Node
  | .alias _ n => n.target
  | n => n

/-- The key says that its value is merged into the mapping. -/
def isMerge (d : Dialect) : Node → Bool
  | scalar tag isPlain text =>
    let isBare := isPlain && (tag == "" || tag == "!")
    text == "<<" &&
      (isBare || (tag == "!" && !d.ignoresLoneTag) || tag == tagStem ++ "merge")
  | _ => false

/-- Two keys are written alike: scalars with the same text, aliases of one name, or two
    collections of one kind. -/
def isWrittenLike : Node → Node → Bool
  | scalar _ _ a, scalar _ _ b => a == b
  | .alias a _, .alias b _ => a == b
  | sequence _, sequence _ => true
  | mapping _, mapping _ => true
  | _, _ => false

end Node

/-- No two keys of a mapping are written alike. -/
def areDistinct : List (Node × Node) → Bool
  | [] => true
  | (k, _) :: rest => !rest.any (fun e => k.isWrittenLike e.1) && areDistinct rest

end ObjectLowering.Data.Yaml
