/-
  Levels of a state machine: the top level, and one for the inside of every
  composite state.

  Each level has a state variable, an enumeration of its vertices and three
  more enumerators: the number of ordinal ones, the value of a level that was
  never entered, and the value of a level that has terminated.  A level knows
  how the levels around it stand while it is active.
-/
import ObjectLowering.Code.Identifier
import ObjectLowering.Lowering.IdTable
import ObjectLowering.Model.Registry

namespace ObjectLowering.Lowering

open Model Code Text

/-- A state variable holding an enumerator. -/
structure Setting where
  var : String
  enumerator : String
deriving DecidableEq, Repr

/-- One level of a state machine. -/
structure Level where
  name : String
  /-- The names of the machine and of the composite states around, for messages. -/
  path : String
  /-- The composite state whose inside this is; the top level has none. -/
  owner : Option State := none
  /-- How the enclosing levels stand, innermost first. -/
  ascent : List Setting := []
  vertices : List Vertex
deriving DecidableEq, Repr

namespace Level

/-- The state variable. -/
def variableName (l : Level) : String := "state_" ++ l.name

/-- The enumerator for the number of ordinal enumerators. -/
def count (l : Level) : String := l.name ++ "_COUNT"

/-- The enumerator of a level that was never entered. -/
def unset (l : Level) : String := l.name ++ "_UNSET"

/-- The enumerator of a level that has terminated. -/
def terminal (l : Level) : String := l.name ++ "_TERMINAL"

/-- The level keeps its last value when it is left. -/
def hasHistory (l : Level) : Bool := (l.owner.map (·.hasHistory)).getD false

/-- The initial pseudostate of the level: the first one. -/
def initial? (l : Level) : Option PseudoState :=
  l.vertices.findSome? fun
    | .pseudo p => if p.pseudoKind = .initial then some p else none
    | .state _ => none

/-- The enumerator of a state of the level. -/
def stateConstant (l : Level) (s : State) : String := l.name ++ "_" ++ ident s.name

/-- The enumerator of the initial pseudostate. -/
def initialConstant (l : Level) (p : PseudoState) : String :=
  l.name ++ "_" ++ ident (if isBlankText p.name then "Initial" else p.name)

/-- The pseudostate is the initial one of the level. -/
def isInitial (l : Level) (p : PseudoState) : Bool := (l.initial?.map (·.id)) == some p.id

/-- The enumerator of a vertex of the level; pseudostates other than the initial one have none. -/
def constant (l : Level) : Vertex → String
  | .state s => l.stateConstant s
  | .pseudo p => if l.isInitial p then l.initialConstant p else ""

/-- The enumerators with ordinal values, in order. -/
def ordinals (l : Level) : List String :=
  l.vertices.filterMap fun
    | .state s => if s.isFinal then none else some (l.stateConstant s)
    | .pseudo p => if l.isInitial p then some (l.initialConstant p) else none

/-- The enumerators of final states. -/
def finals (l : Level) : List String :=
  l.vertices.filterMap fun
    | .state s => if s.isFinal then some (l.stateConstant s) else none
    | .pseudo _ => none

/-- The states of the level that are not final. -/
def states (l : Level) : List State :=
  l.vertices.filterMap fun
    | .state s => if s.isFinal then none else some s
    | .pseudo _ => none

/-- The level lists a vertex. -/
def lists (l : Level) (id : String) : Bool := l.vertices.any fun v => v.id == id

/-- The settings under which a vertex of the level is active, innermost first. -/
def activeSettings (l : Level) (v : Vertex) : List Setting :=
  { var := l.variableName, enumerator := l.constant v } :: l.ascent

/-- The reports on pseudostates that have no counterpart. -/
def notes (l : Level) : List Diagnostic :=
  l.vertices.filterMap fun
    | .pseudo p => match p.pseudoKind with
      | .initial | .shallowHistory => none
      | .other kind => some {
          code := .unsupportedVertex, element := p.id
          message := kind ++ " pseudostate " ++ quote p.name ++ " is not lowered" }
    | .state _ => none

/-- The level inside a composite state of this level. -/
def inside (l : Level) (s : State) (children : List VertexTree) : Level :=
  { name := l.stateConstant s
    path := l.path ++ "." ++ ident s.name
    owner := some s
    ascent := { var := l.variableName, enumerator := l.stateConstant s } :: l.ascent
    vertices := children.map (·.vertex) }

end Level

/-- The levels nested in vertices of a level: for every composite state that is not final its
    inside, followed by what is nested there. -/
def nestedLevels (l : Level) : List VertexTree → List Level
  | [] => []
  | .pseudo _ :: rest => nestedLevels l rest
  | .state s children :: rest =>
    (if s.isFinal || children.isEmpty then []
      else l.inside s children :: nestedLevels (l.inside s children) children) ++
    nestedLevels l rest

/-- All levels of a machine, outer levels before those nested in them. -/
def levelsOf (r : Registry) (m : StateMachine) : List Level :=
  let name := if isBlankText m.name then "Machine" else ident m.name
  let trees := r.machineTrees m.id
  let top : Level := { name, path := name, vertices := trees.map (·.vertex) }
  top :: nestedLevels top trees

end ObjectLowering.Lowering
