/-
  What the generated code of a state machine does, before it is written.

  * `Move` is one effect of taking a transition: a state variable is set, a
    level with history is restored, or a statement runs.
  * `Branch` is a transition with the condition under which it is taken;
    branches are tried in order, and one without condition ends the list.
  * `StepFunction`, `StateFunction` and `EventSwitch` are the functions of a
    level, of a state with behaviour and of an event.
-/
import ObjectLowering.Lowering.Level

namespace ObjectLowering.Lowering

open Model Code Text

/-- A state machine with its levels. -/
structure Machine where
  machine : StateMachine
  levels : List Level

/-- The machine of a model element. -/
def Machine.of (r : Registry) (m : StateMachine) : Machine := ⟨m, levelsOf r m⟩

/-- The fallback of a level with history that was never entered or has terminated. -/
structure Restore where
  var : String
  unset : String
  terminal : String
  entry : String
deriving DecidableEq, Repr

/-- One effect of a transition. -/
inductive Move where
  | assign (s : Setting)
  | restore (x : Restore)
  | run (statement : String)
deriving DecidableEq, Repr

/-- A transition with the condition under which it is taken: settings that have to hold, outermost
    first, and a guard. -/
structure Branch where
  tests : List Setting := []
  /-- The trimmed guard, empty if there is none. -/
  guard : String
  moves : List Move
  transition : Transition
  /-- What taking the transition reports. -/
  notes : List Diagnostic
deriving DecidableEq, Repr

namespace Branch

/-- The branch is always taken. -/
def isUnconditional (b : Branch) : Bool := b.tests.isEmpty && b.guard == ""

/-- The written condition. -/
def condition (b : Branch) : String :=
  String.intercalate " && "
    (b.tests.map (fun s => s.var ++ " == " ++ s.enumerator) ++
      if b.guard = "" then [] else [b.guard])

/-- The branches up to the first that is always taken. -/
def reachable : List Branch → List Branch
  | [] => []
  | b :: rest => if b.isUnconditional then [b] else b :: reachable rest

/-- The reports on a list of branches: those of the reachable ones, and one on the first branch
    behind an unconditional one. -/
def chainNotes : List Branch → List Diagnostic
  | [] => []
  | b :: rest =>
    b.notes ++
    if b.isUnconditional then
      match rest with
      | [] => []
      | next :: _ => [{
          code := .unreachable, element := next.transition.id
          message := "transition is unreachable after an unguarded transition" }]
    else chainNotes rest

end Branch

/-- An action as a statement: trimmed, and ended by a semicolon unless it ends a statement. -/
def statementOf (body : String) : String :=
  let s := trim body
  match s.toList.getLast? with
  | none => s
  | some c => if c = ';' ∨ c = '}' then s else s ++ ";"

/-- The transitions of a vertex without triggers. -/
def completions (r : Registry) (id : String) : List Transition :=
  (r.owned id).outgoing.filter fun t => t.triggers.isEmpty

/-- A state that does something: it has do-activities or completion transitions. -/
def hasBehaviour (r : Registry) (s : State) : Bool :=
  !(r.owned s.id).actions.isEmpty || !(completions r s.id).isEmpty

/-- Where a transition leads. -/
inductive Destination where
  /-- Into a state, by its history or not. -/
  | state (s : State) (byHistory : Bool)
  /-- To the initial pseudostate of a level. -/
  | initial (p : PseudoState)
  /-- To a pseudostate that has no counterpart. -/
  | unsupported (p : PseudoState)
  | nowhere

/-- Where a transition into a vertex leads: a history pseudostate and the initial one of a state
    stand for that state. -/
def destination (r : Registry) : Vertex → Destination
  | .state s => .state s s.hasHistory
  | .pseudo p => match p.pseudoKind with
    | .shallowHistory => match r.state? p.parent with
      | some s => .state s true
      | none => .nowhere
    | .initial => match r.state? p.parent with
      | some s => .state s false
      | none => .initial p
    | .other _ => .unsupported p

namespace Machine

/-- The level that lists a vertex. -/
def levelOf? (m : Machine) (id : String) : Option Level := m.levels.find? fun l => l.lists id

/-- The level inside a state. -/
def inner? (m : Machine) (id : String) : Option Level :=
  m.levels.find? fun l => (l.owner.map (·.id)) == some id

/-- The enumerator of the state that a plain initial transition leads to: the only one, without
    guard and effects, to a state of the same level that is not final. -/
def directEntry (r : Registry) (l : Level) (p : PseudoState) : Option String :=
  match (r.owned p.id).outgoing with
  | [t] =>
    if isBlankText t.guard && (r.owned t.id).actions.isEmpty then
      match r.vertex? t.target with
      | some (.state s) =>
        if !s.isFinal && l.lists s.id then some (l.stateConstant s) else none
      | _ => none
    else none
  | _ => none

/-- The enumerator that a level starts from. -/
def entry (r : Registry) (l : Level) : String :=
  match l.initial? with
  | some p => (directEntry r l p).getD (l.initialConstant p)
  | none => l.ordinals.head?.getD l.terminal

/-- The state that a level starts from. -/
def entryState? (r : Registry) (l : Level) : Option State :=
  l.vertices.findSome? fun
    | .state s => if l.stateConstant s = entry r l then some s else none
    | .pseudo _ => none

/-- The value of the state variable before the first step. -/
def initialValue (r : Registry) (l : Level) : String :=
  if l.hasHistory then l.unset else entry r l

/-- The fallback of a level with history. -/
def restoreOf (r : Registry) (l : Level) : Option Restore :=
  if l.hasHistory then
    some { var := l.variableName, unset := l.unset, terminal := l.terminal, entry := entry r l }
  else none

/-- Sets a level and the levels entered by default inside it to their entries, innermost first. -/
def resetLevel (m : Machine) (r : Registry) : Nat → Level → List Move
  | 0, _ => []
  | depth + 1, l =>
    (match (entryState? r l).bind fun s => m.inner? s.id with
      | some child => if child.hasHistory then [] else m.resetLevel r depth child
      | none => []) ++
    [.assign { var := l.variableName, enumerator := entry r l }]

/-- Sets a newly entered level. Levels nest no deeper than there are levels. -/
def reset (m : Machine) (r : Registry) (l : Level) : List Move := m.resetLevel r m.levels.length l

/-- The moves into a state of a level: the inside anew unless history decides, the level itself,
    the levels around it, and the fallback of history. -/
def enterState (m : Machine) (r : Registry) (l : Level) (s : State) (byHistory : Bool) :
    List Move :=
  let child := m.inner? s.id
  (match child with
    | some c => if byHistory then [] else m.reset r c
    | none => []) ++
  (l.activeSettings (.state s)).map .assign ++
  (match child with
    | some c => if byHistory then (restoreOf r c).toList.map .restore else []
    | none => [])

/-- The moves of a transition into a vertex. -/
def enter (m : Machine) (r : Registry) (v : Vertex) : List Move :=
  match destination r v with
  | .state s byHistory => match m.levelOf? s.id with
    | some l => m.enterState r l s byHistory
    | none => []
  | .initial p => match m.levelOf? p.id with
    | some l => [.assign { var := l.variableName, enumerator := l.constant (.pseudo p) }]
    | none => []
  | .unsupported _ | .nowhere => []

/-- The reports on a transition into a vertex. -/
def enterNotes (m : Machine) (r : Registry) (t : Transition) (v : Vertex) : List Diagnostic :=
  match destination r v with
  | .state s _ =>
    if (m.levelOf? s.id).isSome then [] else [{
      code := .unsupportedVertex, element := t.id
      message := "target " ++ quote s.name ++ " belongs to another state machine" }]
  | .unsupported p => [{
      code := .unsupportedVertex, element := t.id
      message := "transition into " ++ p.pseudoKind.text ++ " pseudostate " ++ quote p.name ++
        " is not lowered" }]
  | .initial _ | .nowhere => []

/-- The moves of a transition: into its target, then its effects. -/
def moves (m : Machine) (r : Registry) (t : Transition) : List Move :=
  ((r.vertex? t.target).map (m.enter r)).getD [] ++
  (r.owned t.id).actions.map fun a => .run (statementOf a.body)

/-- A transition under tests. -/
def branch (m : Machine) (r : Registry) (tests : List Setting) (t : Transition) : Branch :=
  { tests, guard := trim t.guard, moves := m.moves r t, transition := t
    notes := ((r.vertex? t.target).map (m.enterNotes r t)).getD [] }

/-- The completion transitions of a vertex. -/
def completionBranches (m : Machine) (r : Registry) (id : String) : List Branch :=
  (completions r id).map (m.branch r [])

/-- The states with behaviour, level by level. -/
def behaviourStates (m : Machine) (r : Registry) : List (Level × State) :=
  m.levels.flatMap fun l => (l.states.filter (hasBehaviour r)).map fun s => (l, s)

end Machine

/-! ## Functions -/

/-- The inside of a composite state, as its case in a step function needs it. -/
structure Inside where
  level : String
  restore : Option Restore
deriving DecidableEq, Repr

/-- A case of a step function. -/
inductive StepCase where
  /-- The initial pseudostate with its transitions. -/
  | initial (label : String) (branches : List Branch)
  /-- A state with its inside and its behaviour, at least one of them. -/
  | state (label : String) (inside : Option Inside) (behaves : Bool)
deriving DecidableEq, Repr

/-- The function that advances a level: it tells whether the level has not terminated. -/
structure StepFunction where
  level : Level
  cases : List StepCase
deriving DecidableEq, Repr

/-- The function of a state: its do-activities, then its completion transitions. -/
structure StateFunction where
  label : String
  activities : List String
  branches : List Branch
deriving DecidableEq, Repr

/-- The transitions of one machine for one event, by the enumerator of the top level. -/
structure EventSwitch where
  var : String
  groups : List (String × List Branch)
deriving DecidableEq, Repr

namespace Machine

/-- The case of a vertex in the step function of its level. -/
def stepCase? (m : Machine) (r : Registry) (l : Level) : Vertex → Option StepCase
  | .pseudo p =>
    if l.isInitial p then some (.initial (l.initialConstant p) (m.completionBranches r p.id))
    else none
  | .state s =>
    if s.isFinal then none
    else
      let inside := (m.inner? s.id).map fun c => { level := c.name, restore := restoreOf r c }
      let behaves := hasBehaviour r s
      if inside.isNone && !behaves then none
      else some (.state (l.stateConstant s) inside behaves)

/-- The step function of a level. -/
def stepFunction (m : Machine) (r : Registry) (l : Level) : StepFunction :=
  { level := l, cases := l.vertices.filterMap (m.stepCase? r l) }

/-- The function of a state with behaviour. -/
def stateFunction (m : Machine) (r : Registry) (l : Level) (s : State) : StateFunction :=
  { label := l.stateConstant s
    activities := (r.owned s.id).actions.map fun a => statementOf a.body
    branches := m.completionBranches r s.id }

/-- The step functions of all levels. -/
def stepFunctions (m : Machine) (r : Registry) : List StepFunction :=
  m.levels.map (m.stepFunction r)

/-- The functions of all states with behaviour. -/
def stateFunctions (m : Machine) (r : Registry) : List StateFunction :=
  (m.behaviourStates r).map fun (l, s) => m.stateFunction r l s

/-- The transitions with triggers, once per trigger that resolves: the identifier of the event, the
    source with its level, and the transition. -/
def triggered (m : Machine) (r : Registry) : List (String × Level × State × Transition) :=
  m.levels.flatMap fun l => l.states.flatMap fun s => (r.owned s.id).outgoing.flatMap fun t =>
    t.triggers.filterMap fun e => (r.event? e).map fun ev => (ident ev.name, l, s, t)

/-- Adds a branch to the group of its label; a new label opens a group at the end. -/
def addToGroup (groups : List (String × List Branch)) (label : String) (b : Branch) :
    List (String × List Branch) :=
  if groups.any (·.1 == label) then
    groups.map fun g => if g.1 = label then (g.1, g.2 ++ [b]) else g
  else groups ++ [(label, [b])]

/-- The branch of a triggered transition, behind the enumerator of the top level that its source
    lies in. Nested levels are tested outermost first. -/
def triggeredBranch (m : Machine) (r : Registry) (l : Level) (s : State) (t : Transition) :
    String × Branch :=
  match (l.activeSettings (.state s)).reverse with
  | [] => ("", m.branch r [] t)
  | top :: nested => (top.enumerator, m.branch r nested t)

/-- The switch of an event. Inner sources come before the states around them. -/
def eventSwitch (m : Machine) (r : Registry) (event : String) : EventSwitch :=
  let mine := (m.triggered r).filter fun (e, _) => e == event
  let groups := mine.foldl (fun gs (_, l, s, t) =>
    let (label, b) := m.triggeredBranch r l s t
    addToGroup gs label b) []
  { var := (m.levels.head?.map (·.variableName)).getD ""
    groups := groups.map fun g =>
      (g.1, g.2.mergeSort fun a b => decide (b.tests.length ≤ a.tests.length)) }

/-- The reports on the functions of levels and states. -/
def functionNotes (m : Machine) (r : Registry) : List Diagnostic :=
  (m.stepFunctions r).flatMap (fun f => f.cases.flatMap fun
    | .initial _ branches => Branch.chainNotes branches
    | .state _ _ _ => []) ++
  (m.stateFunctions r).flatMap fun f => Branch.chainNotes f.branches

end Machine

/-- The reports on the switch of an event. -/
def EventSwitch.notes (s : EventSwitch) : List Diagnostic :=
  s.groups.flatMap fun g => Branch.chainNotes g.2

/-- The events of a class in the order they are met, machine by machine. -/
def eventsOf (r : Registry) (ms : List Machine) : List String :=
  (ms.flatMap fun m => (m.triggered r).map (·.1)).eraseDups

end ObjectLowering.Lowering
