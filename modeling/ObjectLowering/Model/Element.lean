/-
  The elements of a model.

  Every element has an id, a name and the id of its parent; elements refer to
  each other by id only.  `Element` is the closed sum of all kinds.
-/
import ObjectLowering.Model.Aggregation
import ObjectLowering.Model.Kind
import ObjectLowering.Model.Multiplicity
import ObjectLowering.Model.Qualifier

namespace ObjectLowering.Model

/-- What all elements have in common. -/
structure Identity where
  id : String := ""
  name : String := ""
  parent : String := ""
  stereotype : String := ""
  tags : List (String × String) := []
deriving DecidableEq, Repr

/-- A group of classifiers. -/
structure Package extends Identity
deriving DecidableEq, Repr

/-- A class, data type, enumeration or primitive type. -/
structure Classifier extends Identity where
  kind : ClassifierKind := .objectClass
  isAbstract : Bool := false
  /-- The underlying type name of a primitive type. -/
  aliasBase : String := ""
  literals : List String := []
deriving DecidableEq, Repr

/-- What attributes and association ends say about their values. -/
structure Typed where
  visibility : String := ""
  /-- The id of the classifier of the values, empty if none is named. -/
  type : String := ""
  /-- The type text that stands in when `type` does not resolve. -/
  typeName : String := ""
  multiplicity : Multiplicity := .unset
  aggregation : Aggregation := .unset
  isDerived : Bool := false
  default : String := ""
deriving DecidableEq, Repr

/-- A structural feature of a classifier. -/
structure Attribute extends Identity where
  typed : Typed := {}
deriving DecidableEq, Repr

/-- A relation between two classifiers, given by its two ends. -/
structure Association extends Identity
deriving DecidableEq, Repr

/-- One side of an association. A navigable end is a feature of the classifier at the
    opposite end. -/
structure AssociationEnd extends Identity where
  typed : Typed := {}
  rawQualifier : String := ""
  /-- The parsed qualifier, set when the model is prepared. -/
  qualifier : Qualifier := {}
  isNavigable : Bool := false
deriving DecidableEq, Repr

/-- A parameter of an operation. -/
structure Parameter where
  name : String := ""
  type : String := ""
deriving DecidableEq, Repr

/-- A behavioural feature of a classifier. -/
structure Operation extends Identity where
  visibility : String := ""
  returns : String := ""
  parameters : List Parameter := []
  isQuery : Bool := false
deriving DecidableEq, Repr

/-- An edge from a classifier to a base, owned by the more specific one. -/
structure Generalization extends Identity where
  general : String := ""
  visibility : String := ""
  isRealization : Bool := false
deriving DecidableEq, Repr

/-- An edge from a client to a supplier, owned by the client. -/
structure Dependency extends Identity where
  supplier : String := ""
deriving DecidableEq, Repr

/-- The stereotype of a dependency whose supplier's features become the client's. -/
def importStereotype : String := "Import"

/-- The dependency imports the features of its supplier. -/
def Dependency.isImport (d : Dependency) : Bool := d.stereotype == importStereotype

/-- A state machine of a classifier. -/
structure StateMachine extends Identity
deriving DecidableEq, Repr

/-- A simple, composite or final state. -/
structure State extends Identity where
  isFinal : Bool := false
  /-- The state remembers its last substate; set when the model is prepared. -/
  hasHistory : Bool := false
deriving DecidableEq, Repr

/-- The kinds of pseudostates. -/
inductive PseudoKind where
  | initial
  | shallowHistory
  /-- Any other kind, by its name. -/
  | other (name : String)
deriving DecidableEq, Repr

/-- The written form. -/
def PseudoKind.text : PseudoKind → String
  | initial => "initial"
  | shallowHistory => "shallowHistory"
  | other s => s

/-- Reads the written form; every text is read. -/
def PseudoKind.ofText (s : String) : PseudoKind :=
  if s = "initial" then initial
  else if s = "shallowHistory" then shallowHistory
  else other s

/-- A vertex without behaviour of its own. -/
structure PseudoState extends Identity where
  pseudoKind : PseudoKind := .other ""
deriving DecidableEq, Repr

/-- A step between two vertices; one without triggers is a completion transition. -/
structure Transition extends Identity where
  source : String := ""
  target : String := ""
  guard : String := ""
  triggers : List String := []
deriving DecidableEq, Repr

/-- The name of a trigger. -/
structure Event extends Identity
deriving DecidableEq, Repr

/-- A statement owned by a transition, as an effect, or by a state, as a do-activity. -/
structure Action extends Identity where
  body : String := ""
deriving DecidableEq, Repr

/-- The elements of all kinds. -/
inductive Element where
  | package (x : Package)
  | classifier (x : Classifier)
  | attribute (x : Attribute)
  | association (x : Association)
  | associationEnd (x : AssociationEnd)
  | operation (x : Operation)
  | generalization (x : Generalization)
  | dependency (x : Dependency)
  | stateMachine (x : StateMachine)
  | state (x : State)
  | pseudoState (x : PseudoState)
  | transition (x : Transition)
  | event (x : Event)
  | action (x : Action)
deriving DecidableEq, Repr

namespace Element

/-- The common part of an element. -/
def identity : Element → Identity
  | .package x => x.toIdentity
  | .classifier x => x.toIdentity
  | .attribute x => x.toIdentity
  | .association x => x.toIdentity
  | .associationEnd x => x.toIdentity
  | .operation x => x.toIdentity
  | .generalization x => x.toIdentity
  | .dependency x => x.toIdentity
  | .stateMachine x => x.toIdentity
  | .state x => x.toIdentity
  | .pseudoState x => x.toIdentity
  | .transition x => x.toIdentity
  | .event x => x.toIdentity
  | .action x => x.toIdentity

/-- The id of an element. -/
def id (e : Element) : String := e.identity.id

/-- The kind of an element. -/
def kind : Element → Kind
  | .package _ => .package
  | .classifier x => .classifier x.kind
  | .attribute _ => .attribute
  | .association _ => .association
  | .associationEnd _ => .associationEnd
  | .operation _ => .operation
  | .generalization _ => .generalization
  | .dependency _ => .dependency
  | .stateMachine _ => .stateMachine
  | .state _ => .state
  | .pseudoState _ => .pseudoState
  | .transition _ => .transition
  | .event _ => .event
  | .action _ => .action

end Element

/-- A node of a state machine. -/
inductive Vertex where
  | state (x : State)
  | pseudo (x : PseudoState)
deriving DecidableEq, Repr

namespace Vertex

/-- The common part of a vertex. -/
def identity : Vertex → Identity
  | .state x => x.toIdentity
  | .pseudo x => x.toIdentity

/-- The id of a vertex. -/
def id (v : Vertex) : String := v.identity.id

end Vertex

/-- A data feature of a classifier. -/
inductive Feature where
  | attribute (x : Attribute)
  | associationEnd (x : AssociationEnd)
deriving DecidableEq, Repr

namespace Feature

/-- The common part of a feature. -/
def identity : Feature → Identity
  | .attribute x => x.toIdentity
  | .associationEnd x => x.toIdentity

/-- The id of a feature. -/
def id (f : Feature) : String := f.identity.id

/-- The name of a feature. -/
def name (f : Feature) : String := f.identity.name

/-- What the feature says about its values. -/
def typed : Feature → Typed
  | .attribute x => x.typed
  | .associationEnd x => x.typed

/-- The qualifier of a feature; attributes have none. -/
def qualifier : Feature → Qualifier
  | .attribute _ => {}
  | .associationEnd x => x.qualifier

/-- The feature is an association end. -/
def isEnd : Feature → Bool
  | .attribute _ => false
  | .associationEnd _ => true

end Feature

end ObjectLowering.Model
