/-
  Dialects of YAML.

  Readers of the format agree on its structure and differ in which plain
  scalars are more than texts, in what a lone `!` says, in what becomes of
  keys that are given twice, and in how tolerant they are around comments.
-/

namespace ObjectLowering.Data.Yaml

/-- What readers of the format decide for themselves. -/
structure Dialect where
  trueWords : List String
  falseWords : List String
  /-- The marks of bases behind which the sign of a number may stand. -/
  bases : List (String × Nat)
  /-- Plain dates are values of their own, and not texts. -/
  hasDates : Bool
  /-- A lone `!` says nothing; otherwise it makes a text of a plain scalar. -/
  ignoresLoneTag : Bool
  /-- Of keys that are merged into a mapping those count that it does not have yet; otherwise it
      may have none of them. -/
  mergesBelow : Bool
  /-- A comment may stand behind tabs where no other token may. -/
  hasFreeComments : Bool
  /-- How many tokens behind the next one are read ahead. -/
  lookahead : Nat

/-- The dialect in which `yes`, `on` and `y` are true. -/
def Dialect.classic : Dialect where
  trueWords := ["y", "Y", "yes", "Yes", "YES", "true", "True", "TRUE", "on", "On", "ON"]
  falseWords := ["n", "N", "no", "No", "NO", "false", "False", "FALSE", "off", "Off", "OFF"]
  bases := [("0b", 2)]
  hasDates := false
  ignoresLoneTag := false
  mergesBelow := false
  hasFreeComments := false
  lookahead := 0

/-- The dialect in which only the words `true` and `false` are booleans, and dates are dates. -/
def Dialect.modern : Dialect where
  trueWords := ["true", "True", "TRUE"]
  falseWords := ["false", "False", "FALSE"]
  bases := [("0b", 2), ("0o", 8)]
  hasDates := true
  ignoresLoneTag := true
  mergesBelow := true
  hasFreeComments := true
  lookahead := 2

end ObjectLowering.Data.Yaml
