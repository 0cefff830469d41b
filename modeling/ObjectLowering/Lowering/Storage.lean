/-
  Storage and marshalling of features.

  * `Storage` is how a feature is declared: its shape by multiplicity, its
    container by aggregation, its element by the classifier.
  * `Category` is how its values are marshalled; the shape plays no part.
-/
import ObjectLowering.Code.Identifier
import ObjectLowering.Code.Primitive
import ObjectLowering.Lowering.Family

namespace ObjectLowering.Lowering

open Model Code

/-- How many values are stored. -/
inductive Shape where
  | scalar
  | optional
  | keyed
deriving DecidableEq, Repr

/-- The name of a shape. -/
def Shape.name : Shape → String
  | scalar => "scalar"
  | optional => "optional"
  | keyed => "keyed"

/-- The shape of a multiplicity; one outside the closed set is a scalar. -/
def Shape.ofMultiplicity (m : Multiplicity) : Shape :=
  if m.isOptional then .optional else if m.isMany then .keyed else .scalar

/-- The declaration side of a feature. -/
structure Storage where
  shape : Shape
  /-- The values are held through shared pointers. -/
  isShared : Bool
  /-- The model-level name of the element type. -/
  element : String
  /-- The model-level name of the key type, empty unless keyed. -/
  key : String
  classifier : Option Classifier
deriving DecidableEq, Repr

namespace Storage

/-- The classifier is a class or a data type. -/
def isComposite (s : Storage) : Bool :=
  match s.classifier with
  | some c => c.kind == .objectClass || c.kind == .dataType
  | none => false

/-- A forward declaration of the classifier is enough. -/
def isForwardOnly (s : Storage) : Bool := s.isShared && s.isComposite

/-- The classifier has to be defined before the member. -/
def needsDefinition (s : Storage) : Bool := s.isComposite && !s.isForwardOnly

/-- The spelling of the element type. -/
def elementType (s : Storage) : String := spell s.element

/-- The spelling of the key type. -/
def keyType (s : Storage) : String := spell s.key

/-- The spelling of the member type. -/
def type (s : Storage) : String :=
  let e := if s.isShared then "std::shared_ptr<" ++ s.elementType ++ ">" else s.elementType
  match s.shape with
  | .optional => if s.isShared then e else "std::optional<" ++ e ++ ">"
  | .keyed => "std::map<" ++ s.keyType ++ ", " ++ e ++ ">"
  | .scalar => e

end Storage

/-- The element type of features with neither a classifier nor a type text. -/
def defaultElementType : String := "int64"

/-- The element type that a classifier stands for. -/
def elementName (c : Classifier) : String :=
  match c.kind with
  | .enumeration => "uint64"
  | .primitiveType => if Text.isBlankText c.aliasBase then c.name else Text.trim c.aliasBase
  | .objectClass | .dataType => c.name

/-- The storage of a feature. -/
def storageOf (r : Registry) (f : Feature) : Storage :=
  let t := f.typed
  let shape := Shape.ofMultiplicity t.multiplicity
  let classifier := r.classifier? t.type
  { shape
    isShared := t.aggregation == .shared
    element := match classifier with
      | some c => elementName c
      | none => if Text.isBlankText t.typeName then defaultElementType else Text.trim t.typeName
    key := if shape = .keyed then f.qualifier.keyType else ""
    classifier }

/-- How values are marshalled. -/
inductive Category where
  | verbatim
  | int
  | float
  | string
  | bool
  | reference
  | struct
deriving DecidableEq, Repr

/-- The name of a category. -/
def Category.name : Category → String
  | .verbatim => "Opaque"
  | .int => "Int"
  | .float => "Float"
  | .string => "String"
  | .bool => "Bool"
  | .reference => "Reference"
  | .struct => "Struct"

/-- The category of a primitive type name. -/
def Category.ofPrimitive (name : String) : Category :=
  match classify name with
  | .integral => .int
  | .floating => .float
  | .text => .string
  | .boolean => .bool
  | .none => .verbatim

/-- The category of a classifier. -/
def Category.ofClassifier (r : Registry) (c : Classifier) : Category :=
  match family r c with
  | .value => if c.kind = .enumeration then .int else .ofPrimitive c.aliasBase
  | .simObject => .reference
  | .struct => .struct

/-- The category of a feature. -/
def categoryOf (r : Registry) (f : Feature) : Category :=
  let t := f.typed
  match r.classifier? t.type with
  | some c => .ofClassifier r c
  | none => if Text.isBlankText t.typeName then .int else .ofPrimitive t.typeName

end ObjectLowering.Lowering
