/-
  The generated code of state machines.

  Every construct of a machine is written by a function to `Edit`s: moves,
  chains of branches, step functions, state functions, the switches of
  events, and the declarations that go with them.
-/
import ObjectLowering.Lowering.Accessor
import ObjectLowering.Lowering.Machine

namespace ObjectLowering.Lowering

open Model Code

/-! ## Statements -/

/-- The assignment of an enumerator. -/
def Setting.statement (s : Setting) : String := s.var ++ " = " ++ s.enumerator ++ ";"

/-- The test whether a level has to fall back to its entry. -/
def Restore.condition (x : Restore) : String :=
  x.var ++ " == " ++ x.unset ++ " || " ++ x.var ++ " == " ++ x.terminal

/-- The fallback of a level with history. -/
def Restore.edits (x : Restore) : List Edit :=
  [.opening ("if (" ++ x.condition ++ ")"), .line (x.var ++ " = " ++ x.entry ++ ";"), .closing ""]

/-- The statement of a move. -/
def Move.edits : Move → List Edit
  | .assign s => [.line s.statement]
  | .restore x => x.edits
  | .run statement => [.line statement]

/-- The effects of a branch. -/
def Branch.effectEdits (b : Branch) : List Edit := b.moves.flatMap Move.edits

/-- A line between two arms of a conditional. -/
def betweenArms (text : String) : List Edit := [.dedent, .line text, .indent]

/-- The arms behind the first condition. The first branch that is always taken is the last arm. -/
def elseEdits : List Branch → List Edit
  | [] => [.closing ""]
  | b :: rest =>
    if b.isUnconditional then
      betweenArms "\x7d else \x7b" ++ b.effectEdits ++ [.closing ""]
    else
      betweenArms ("\x7d else if (" ++ b.condition ++ ") \x7b") ++ b.effectEdits ++ elseEdits rest

/-- Branches as a conditional; the first that is always taken is the last that is written. -/
def chainEdits : List Branch → List Edit
  | [] => []
  | b :: rest =>
    if b.isUnconditional then b.effectEdits
    else .opening ("if (" ++ b.condition ++ ")") :: b.effectEdits ++ elseEdits rest

/-- A labelled case that ends with a break. -/
def breakingCase (label : String) (body : List Edit) : List Edit :=
  Accessor.labelled label (body ++ [.line "break;"])

/-! ## Functions -/

/-- The case of a vertex in a step function. The behaviour of a composite state runs only when its
    inside has terminated. -/
def StepCase.edits : StepCase → List Edit
  | .initial label branches => breakingCase label (chainEdits branches)
  | .state label none _ => breakingCase label [.line ("State_" ++ label ++ "();")]
  | .state label (some inside) behaves =>
    breakingCase label
      ((inside.restore.map Restore.edits).getD [] ++
        if behaves then
          [.opening ("if (!Step_" ++ inside.level ++ "())"), .line ("State_" ++ label ++ "();"),
            .closing ""]
        else [.line ("Step_" ++ inside.level ++ "();")])

/-- The case of a level that has terminated, for levels that can. -/
def Level.terminalCase (l : Level) : List Edit :=
  if l.finals.isEmpty then [] else Accessor.labelled l.terminal [.line "return false;"]

/-- The definition of a step function. -/
def StepFunction.edits (className : String) (f : StepFunction) : List Edit :=
  [.opening ("bool " ++ className ++ "::Step_" ++ f.level.name ++ "()"),
    .opening ("switch (" ++ f.level.variableName ++ ")")] ++
  f.cases.flatMap StepCase.edits ++ f.level.terminalCase ++ defaultCase ++
  [.closing "", .line "return true;", .closing ""]

/-- The definition of a state function. -/
def StateFunction.edits (className : String) (f : StateFunction) : List Edit :=
  .opening ("void " ++ className ++ "::State_" ++ f.label ++ "()") ::
    f.activities.map Edit.line ++ chainEdits f.branches ++ [.closing ""]

/-- The switch of an event; a machine without transitions for the event has none. -/
def EventSwitch.edits (s : EventSwitch) : List Edit :=
  if s.groups.isEmpty then []
  else
    .opening ("switch (" ++ s.var ++ ")") ::
      s.groups.flatMap (fun g => breakingCase g.1 (chainEdits g.2)) ++ defaultCase ++ [.closing ""]

/-- A definition and the blank line behind it. -/
def spaced (edits : List Edit) : List Edit := edits ++ [.line ""]

/-- The definitions of a machine. -/
def Machine.definitionEdits (m : Machine) (r : Registry) (className : String) : List Edit :=
  (m.stepFunctions r).flatMap (fun f => spaced (f.edits className)) ++
  (m.stateFunctions r).flatMap fun f => spaced (f.edits className)

/-- The definition of the entry point of an event: one switch per machine. -/
def eventEdits (r : Registry) (className : String) (ms : List Machine) (event : String) :
    List Edit :=
  .opening ("void " ++ className ++ "::On_" ++ event ++ "()") ::
    ms.flatMap (fun m => (m.eventSwitch r event).edits) ++ [.closing ""]

/-! ## Declarations -/

/-- The enumerators of a level with their values, in order. -/
def Level.enumerators (l : Level) : List (String × String) :=
  l.ordinals.mapIdx (fun i name => (name, toString i)) ++
  [(l.count, toString l.ordinals.length), (l.unset, l.count), (l.terminal, "UINT64_MAX")] ++
  l.finals.map fun name => (name, l.terminal)

/-- The enumeration of a level. -/
def Level.enumEdits (l : Level) : List Edit :=
  .opening "enum : uint64_t" ::
    l.enumerators.map (fun e => Edit.line (e.1 ++ " = " ++ e.2 ++ ",")) ++ [.closing ";"]

/-- The public declarations of a machine: enumerations and step functions. -/
def Machine.publicEdits (m : Machine) : List Edit :=
  m.levels.flatMap Level.enumEdits ++
  m.levels.map fun l => .line ("bool Step_" ++ l.name ++ "();")

/-- The private declarations of a machine: state variables and state functions. -/
def Machine.privateEdits (m : Machine) (r : Registry) : List Edit :=
  m.levels.map (fun l => .line
    ("uint64_t " ++ l.variableName ++ " = " ++ Machine.initialValue r l ++ ";")) ++
  (m.stateFunctions r).map fun f => .line ("void State_" ++ f.label ++ "();")

end ObjectLowering.Lowering
