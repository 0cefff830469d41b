/-
  The kinds of model elements and their names.
-/
import ObjectLowering.Text.Casing

namespace ObjectLowering.Model

/-- The four kinds of classifiers. -/
inductive ClassifierKind where
  | objectClass
  | dataType
  | enumeration
  | primitiveType
deriving DecidableEq, Repr

/-- The kinds of model elements. -/
inductive Kind where
  | package
  | classifier (kind : ClassifierKind)
  | attribute
  | association
  | associationEnd
  | operation
  | generalization
  | dependency
  | stateMachine
  | state
  | pseudoState
  | transition
  | event
  | action
deriving DecidableEq, Repr

namespace Kind

/-- All kinds, in their fixed order. -/
def all : List Kind := [
  .package, .classifier .objectClass, .classifier .dataType, .classifier .enumeration,
  .classifier .primitiveType, .attribute, .association, .associationEnd, .operation,
  .generalization, .dependency, .stateMachine, .state, .pseudoState, .transition, .event, .action]

/-- The name of a kind in model files and messages. -/
def name : Kind → String
  | .package => "Package"
  | .classifier .objectClass => "Class"
  | .classifier .dataType => "DataType"
  | .classifier .enumeration => "Enumeration"
  | .classifier .primitiveType => "PrimitiveType"
  | .attribute => "Attribute"
  | .association => "Association"
  | .associationEnd => "AssociationEnd"
  | .operation => "Operation"
  | .generalization => "Generalization"
  | .dependency => "Dependency"
  | .stateMachine => "StateMachine"
  | .state => "State"
  | .pseudoState => "PseudoState"
  | .transition => "Transition"
  | .event => "Event"
  | .action => "Action"

/-- The position of a kind in the fixed order, counted from one. -/
def number (k : Kind) : Nat := all.idxOf k + 1

/-- The kind with a given name, in any mixture of upper and lower case. -/
def ofName? (s : String) : Option Kind := all.find? fun k => Text.foldEq k.name s

/-- A kind of classifier. -/
def isClassifier : Kind → Bool
  | .classifier _ => true
  | _ => false

end Kind

end ObjectLowering.Model
