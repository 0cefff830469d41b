/-
  Primitive types: how a model-level type name is spelled in the generated
  code, and into which marshalling group a spelling falls.
-/
import ObjectLowering.Text.Blank

namespace ObjectLowering.Code

/-- Model-level names of primitive types with their spelling. -/
def primitiveSpellings : List (String × String) := [
  ("string", "std::string"), ("String", "std::string"), ("char", "char"),
  ("int", "int64_t"), ("Integer", "int64_t"), ("integer", "int64_t"), ("long", "int64_t"),
  ("int8", "int8_t"), ("int16", "int16_t"), ("short", "int16_t"), ("int32", "int32_t"),
  ("int64", "int64_t"), ("uint8", "uint8_t"), ("byte", "uint8_t"), ("uint16", "uint16_t"),
  ("uint32", "uint32_t"), ("unsigned", "uint32_t"), ("uint64", "uint64_t"),
  ("UInt64", "uint64_t"), ("size_t", "size_t"), ("bool", "bool"), ("Boolean", "bool"),
  ("boolean", "bool"), ("float", "float"), ("double", "double"), ("Real", "double"),
  ("real", "double"), ("float32", "float"), ("float64", "double")]

/-- The spelling of a type name; a name that is no primitive is spelled as it is, trimmed. -/
def spell (name : String) : String :=
  (primitiveSpellings.lookup (Text.trim name)).getD (Text.trim name)

/-- Marshalling groups of primitive spellings. -/
inductive PrimitiveClass where
  | none
  | integral
  | floating
  | text
  | boolean
deriving DecidableEq, Repr

/-- The position of a group in the fixed numbering of groups. -/
def PrimitiveClass.number : PrimitiveClass → Nat
  | .none => 0
  | .integral => 1
  | .floating => 2
  | .text => 3
  | .boolean => 4

/-- The spellings of integral types. -/
def integralSpellings : List String :=
  ["char", "int8_t", "int16_t", "int32_t", "int64_t", "uint8_t", "uint16_t", "uint32_t",
    "uint64_t", "size_t"]

/-- The group of a spelling. -/
def PrimitiveClass.ofSpelling (s : String) : PrimitiveClass :=
  if integralSpellings.contains s then .integral
  else if s = "float" ∨ s = "double" then .floating
  else if s = "std::string" then .text
  else if s = "bool" then .boolean
  else .none

/-- The group of a model-level type name. -/
def classify (name : String) : PrimitiveClass := .ofSpelling (spell name)

end ObjectLowering.Code
