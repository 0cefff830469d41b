/-
  Diagnostics: recovered problems, each attached to an element.
-/

namespace ObjectLowering.Model

/-- What a diagnostic is about. -/
inductive DiagnosticCode where
  | unresolvedReference
  | shadowedFeature
  | malformedQualifier
  | invalidMultiplicity
  | invalidAggregation
  | associationArity
  | orphan
  | stereotypeCase
  | unsupportedVertex
  | nestedCollection
  | recursiveStruct
  | unreachable
deriving DecidableEq, Repr

/-- The written form of a code. -/
def DiagnosticCode.text : DiagnosticCode → String
  | unresolvedReference => "unresolved-reference"
  | shadowedFeature => "shadowed-feature"
  | malformedQualifier => "malformed-qualifier"
  | invalidMultiplicity => "invalid-multiplicity"
  | invalidAggregation => "invalid-aggregation"
  | associationArity => "association-arity"
  | orphan => "orphan"
  | stereotypeCase => "stereotype-case"
  | unsupportedVertex => "unsupported-vertex"
  | nestedCollection => "nested-collection"
  | recursiveStruct => "recursive-struct"
  | unreachable => "unreachable-transition"

/-- How serious a diagnostic is; only errors make a model invalid. -/
inductive Severity where
  | info
  | warning
  | error
deriving DecidableEq, Repr

/-- The written form of a severity. -/
def Severity.text : Severity → String
  | info => "info"
  | warning => "warning"
  | error => "error"

/-- A recovered problem. -/
structure Diagnostic where
  code : DiagnosticCode
  severity : Severity := .warning
  /-- The id of the element it is about. -/
  element : String
  message : String
deriving DecidableEq, Repr

/-- One line: severity, code, element and message. -/
def Diagnostic.text (d : Diagnostic) : String :=
  d.severity.text ++ ": " ++ d.code.text ++ " [" ++ d.element ++ "] " ++ d.message

/-- Some diagnostic is an error. -/
def hasErrors (ds : List Diagnostic) : Bool := ds.any (·.severity == .error)

end ObjectLowering.Model
