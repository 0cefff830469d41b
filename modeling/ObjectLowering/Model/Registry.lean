/-
  The registry: all elements of one model in the order they were added, each
  under an id of its own.

  * `add` refuses an empty id and an id that is taken.
  * `lookup` finds an element by id; `classifier?`, `vertex?`, `event?`, …
    also ask for its kind, so a reference is a plain id and resolving it is
    one of these look-ups.
  * `Owned` and `Links` say which elements belong to which, in order; they
    are empty until the model is prepared.
-/
import ObjectLowering.Model.Diagnostic
import ObjectLowering.Model.Element
import ObjectLowering.Text.Quoted

namespace ObjectLowering.Model

/-- What belongs to one element, each list in registration order. -/
structure Owned where
  attributes : List Attribute := []
  /-- Navigable ends that are features of a classifier. -/
  ends : List AssociationEnd := []
  operations : List Operation := []
  generalizations : List Generalization := []
  dependencies : List Dependency := []
  machines : List StateMachine := []
  /-- Vertices of a machine, or substates of a state. -/
  vertices : List Vertex := []
  /-- Transitions that leave a vertex. -/
  outgoing : List Transition := []
  /-- Effects of a transition, or do-activities of a state. -/
  actions : List Action := []
  /-- Ends of an association. -/
  members : List AssociationEnd := []
deriving DecidableEq, Repr

/-- The owned lists by owner id. -/
structure Links where
  entries : List (String × Owned) := []
deriving DecidableEq, Repr

namespace Links

/-- What belongs to the element with this id. -/
def of (l : Links) (id : String) : Owned := (l.entries.lookup id).getD {}

/-- Changes what belongs to one element. -/
def update (l : Links) (id : String) (f : Owned → Owned) : Links :=
  ⟨(id, f (l.of id)) :: l.entries.filter fun e => e.1 != id⟩

end Links

/-- Why an element is refused. -/
inductive AddError where
  | emptyId (kind : Kind) (name : String)
  | duplicateId (id : String) (first second : Kind)
deriving DecidableEq, Repr

/-- The text of a refusal. -/
def AddError.message : AddError → String
  | emptyId kind name => "model: element id is empty: " ++ kind.name ++ " " ++ Text.quote name
  | duplicateId id first second =>
    "model: duplicate element id: " ++ Text.quote id ++
      " (" ++ first.name ++ " and " ++ second.name ++ ")"

/-- The elements of one model. -/
structure Registry where
  elements : List Element := []
  isPrepared : Bool := false
  links : Links := {}
  /-- What preparing the model reported. -/
  diagnostics : List Diagnostic := []

namespace Registry

/-- The element with this id. -/
def lookup (r : Registry) (id : String) : Option Element :=
  r.elements.find? fun e => e.id == id

/-- Adds an element at the end. -/
def add (r : Registry) (e : Element) : Except AddError Registry :=
  if e.id = "" then .error (.emptyId e.kind e.identity.name)
  else match r.lookup e.id with
    | some first => .error (.duplicateId e.id first.kind e.kind)
    | none => .ok { r with elements := r.elements ++ [e] }

/-- What belongs to the element with this id. -/
def owned (r : Registry) (id : String) : Owned := r.links.of id

/-- The classifier with this id. -/
def classifier? (r : Registry) (id : String) : Option Classifier :=
  match r.lookup id with
  | some (.classifier x) => some x
  | _ => none

/-- The association with this id. -/
def association? (r : Registry) (id : String) : Option Association :=
  match r.lookup id with
  | some (.association x) => some x
  | _ => none

/-- The vertex with this id. -/
def vertex? (r : Registry) (id : String) : Option Vertex :=
  match r.lookup id with
  | some (.state x) => some (.state x)
  | some (.pseudoState x) => some (.pseudo x)
  | _ => none

/-- The state with this id. -/
def state? (r : Registry) (id : String) : Option State :=
  match r.lookup id with
  | some (.state x) => some x
  | _ => none

/-- The event with this id. -/
def event? (r : Registry) (id : String) : Option Event :=
  match r.lookup id with
  | some (.event x) => some x
  | _ => none

/-- All classifiers in registration order. -/
def classifiers (r : Registry) : List Classifier :=
  r.elements.filterMap fun
    | .classifier x => some x
    | _ => none

/-- The first classifier with this name. -/
def findClassifier? (r : Registry) (name : String) : Option Classifier :=
  r.classifiers.find? fun c => c.name == name

/-- The end of an association opposite to a given end. -/
def otherEnd? (r : Registry) (association theEnd : String) : Option AssociationEnd :=
  match (r.owned association).members with
  | [a, b] => if a.id = theEnd then some b else if b.id = theEnd then some a else none
  | _ => none

/-- The classifiers that a classifier names as its bases and that resolve, in order. -/
def bases (r : Registry) (id : String) : List Classifier :=
  (r.owned id).generalizations.filterMap fun g => r.classifier? g.general

end Registry

/-- A vertex with everything nested in it. -/
inductive VertexTree where
  | state (x : State) (children : List VertexTree)
  | pseudo (x : PseudoState)

/-- The vertex at the root of a tree. -/
def VertexTree.vertex : VertexTree → Vertex
  | .state x _ => .state x
  | .pseudo x => .pseudo x

/-- The vertices below an owner, at most `depth` levels deep. -/
def Registry.vertexTrees (r : Registry) : Nat → String → List VertexTree
  | 0, _ => []
  | depth + 1, owner => (r.owned owner).vertices.map fun
    | .state s => .state s (r.vertexTrees depth s.id)
    | .pseudo p => .pseudo p

/-- The vertices of a machine. No chain of nested states is longer than the registry. -/
def Registry.machineTrees (r : Registry) (machine : String) : List VertexTree :=
  r.vertexTrees r.elements.length machine

end ObjectLowering.Model
