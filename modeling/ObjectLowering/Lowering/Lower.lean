/-
  Lowering a classifier.

  * A `Plan` is all that the code of a simulation object is made from: its
    flattened features, its machines and its locations.
  * `Plan.claims` lists the ids that the class claims, in order.  When all
    are granted, `Plan.unit` is the code; the first refusal is the error.
  * `lowerClass` threads the id table; it is the only state.
-/
import ObjectLowering.Lowering.CodeUnit
import ObjectLowering.Lowering.MachineCode

namespace ObjectLowering.Lowering

open Model Code Text

/-- The prefix of the keys of state variables. -/
def defaultStateStem : String := "STATE"

/-- The prefixes of id keys. -/
structure Stems where
  /-- For top-level features. -/
  feature : String := defaultStem
  /-- For state variables. -/
  state : String := defaultStateStem
deriving DecidableEq, Repr

/-- The prefixes from configured texts; an empty one selects the default. -/
def Stems.ofTexts (feature state : String) : Stems :=
  { feature := if feature = "" then defaultStem else constantName feature
    state := if state = "" then defaultStateStem else constantName state }

/-- What claims an id. -/
inductive Claimant where
  | features
  | machine (name : String)
deriving DecidableEq, Repr

/-- A class that could not be lowered. -/
structure LowerError where
  className : String
  claimant : Claimant
  collision : Collision
deriving DecidableEq, Repr

/-- The text of a failure without the class in front. -/
def LowerError.cause (e : LowerError) : String :=
  (match e.claimant with
    | .features => "flatten " ++ e.className
    | .machine name => "state machine " ++ name) ++ ": " ++ e.collision.message

/-- The text of a failure. -/
def LowerError.message (e : LowerError) : String := "lower " ++ e.className ++ ": " ++ e.cause

/-! ## Plans -/

/-- What the code of a simulation object is made from. -/
structure Plan where
  classifier : Classifier
  flattened : List Flattened
  machines : List Machine
  survey : Survey

namespace Plan

/-- The plan of a class. -/
def of (r : Registry) (stems : Stems) (c : Classifier) : Plan :=
  let flattened := flatten r c stems.feature
  { classifier := c, flattened
    machines := (r.owned c.id).machines.map (Machine.of r)
    survey := Lowering.survey r c (.ofFlattened flattened) }

/-- The name of the class in the generated code. -/
def name (p : Plan) : String := ident p.classifier.name

/-- The features of the class. -/
def features (p : Plan) : Features := .ofFlattened p.flattened

/-- The claims of a machine: one key per level. -/
def machineClaims (stems : Stems) (m : Machine) : List (Claimant × String × String) :=
  m.levels.map fun l =>
    (.machine m.machine.name, keyOf stems.state l.name, "state machine " ++ l.path)

/-- All claims of the class in order: features, state variables, features of nested structs. -/
def claims (p : Plan) (stems : Stems) : List (Claimant × String × String) :=
  (claimsOf p.flattened).map (Claimant.features, ·) ++
  p.machines.flatMap (machineClaims stems) ++
  p.survey.claims.map (Claimant.features, ·)

/-- The state variables of all machines. -/
def stateVariables (p : Plan) (stems : Stems) : List StateVariable :=
  p.machines.flatMap fun m => m.levels.map fun l =>
    { key := keyOf stems.state l.name, name := l.variableName }

/-- The events of all machines. -/
def events (p : Plan) (r : Registry) : List String := eventsOf r p.machines

/-- The members that refer to other objects. -/
def references (p : Plan) : List Member :=
  (Accessor.getReference.locations p.survey.locations).map (·.member)

/-- The reports on the class, each once. -/
def notes (p : Plan) (r : Registry) : List Diagnostic :=
  distinctNotes
    (notesOf p.flattened ++
      p.machines.flatMap (fun m => m.levels.flatMap Level.notes) ++
      p.survey.notes ++
      p.machines.flatMap (·.functionNotes r) ++
      (p.events r).flatMap fun e => p.machines.flatMap fun m => (m.eventSwitch r e).notes)

/-- The definition: accessors, machines, entry points of events. -/
def definitionEdits (p : Plan) (r : Registry) (stems : Stems) : List Edit :=
  Accessor.all.flatMap (fun a =>
    spaced (a.edits p.name p.survey.locations (p.stateVariables stems))) ++
  p.machines.flatMap (·.definitionEdits r p.name) ++
  (p.events r).flatMap fun e => spaced (eventEdits r p.name p.machines e)

/-- Edits with one more edit in front, unless there are none. -/
def headed (first : List Edit) (edits : List Edit) : List Edit :=
  if edits.isEmpty then [] else first ++ edits

/-- The constants of the ids, sorted by key. -/
def idEdits (ids : List IdEntry) : List Edit :=
  let lines := (sortByKey (·.key) ids).map fun e =>
    Edit.line ("static constexpr uint64_t " ++ ident e.key ++ " = " ++ formatId e.id ++ "ULL;")
  if ids.isEmpty then [] else lines ++ [.line ""]

/-- The declarations of machines and events. -/
def behaviourEdits (p : Plan) (r : Registry) : List Edit :=
  p.machines.flatMap Machine.publicEdits ++
  (p.events r).map (fun e => Edit.line ("void On_" ++ e ++ "();")) ++
  if p.machines.isEmpty then [] else [.line ""]

/-- The declaration of the class. -/
def declarationEdits (p : Plan) (r : Registry) (ids : List IdEntry) : List Edit :=
  [.opening ("class " ++ p.name ++ " : public sim::SimObject"), .dedent, .line "public:",
    .indent] ++
  idEdits ids ++ p.behaviourEdits r ++
  Accessor.all.map (fun a => Edit.line a.declaration) ++
  headed [.line ""] (p.features.data.map fun m => .line m.line) ++
  headed [.line ""] (p.features.operations.map fun o => .line (operationLine o)) ++
  headed [.line "", .dedent, .line "private:", .indent]
    (p.machines.flatMap (·.privateEdits r)) ++
  [.closing ";"]

/-- The code of the class with its ids. -/
def unit (p : Plan) (r : Registry) (stems : Stems) (ids : List IdEntry) : CodeUnit :=
  { classifier := p.classifier, family := .simObject, features := some p.features
    machineCount := p.machines.length, ids, references := p.references, events := p.events r
    needs := needsOf p.classifier p.features.data
    declaration := render (p.declarationEdits r ids)
    definition := trimEnd (· == '\n') (render (p.definitionEdits r stems)) ++ "\n"
    diagnostics := p.notes r }

end Plan

/-! ## Lowering -/

/-- The unit of an enumeration. -/
def enumerationUnit (r : Registry) (c : Classifier) : CodeUnit :=
  { classifier := c, family := family r c, machineCount := (r.owned c.id).machines.length
    declaration := render (enumerationEdits (ident c.name) c.literals) }

/-- The unit of a primitive type. -/
def aliasUnit (r : Registry) (c : Classifier) : CodeUnit :=
  { classifier := c, family := family r c, machineCount := (r.owned c.id).machines.length
    declaration := aliasDeclaration c }

/-- The unit of a struct. -/
def structUnit (r : Registry) (stems : Stems) (c : Classifier) : CodeUnit :=
  let flattened := flatten r c stems.feature
  let features := Features.ofFlattened flattened
  { classifier := c, family := .struct, features := some features
    machineCount := (r.owned c.id).machines.length
    needs := needsOf c features.data
    declaration := render (structEdits (ident c.name) features)
    diagnostics := distinctNotes (notesOf flattened) }

/-- Lowers a simulation object. Ids that were granted before a refusal stay in the table. -/
def lowerSimObject (r : Registry) (stems : Stems) (t : IdTable) (c : Classifier) :
    IdTable × Except LowerError CodeUnit :=
  let p := Plan.of r stems c
  let claims := p.claims stems
  match (t.withScope c.id).claimAll c.id (claims.map (·.2)) with
  | (t, _, none) => (t, .ok (p.unit r stems (t.entries c.id)))
  | (t, granted, some collision) =>
    let claimant := (claims[granted]?.map (·.1)).getD .features
    (t, .error { className := c.name, claimant, collision })

/-- Lowers a classifier of a prepared registry. -/
def lowerClass (r : Registry) (stems : Stems) (t : IdTable) (c : Classifier) :
    IdTable × Except LowerError CodeUnit :=
  match c.kind with
  | .enumeration => (t, .ok (enumerationUnit r c))
  | .primitiveType => (t, .ok (aliasUnit r c))
  | .objectClass | .dataType =>
    if family r c = .simObject then lowerSimObject r stems t c else (t, .ok (structUnit r stems c))

end ObjectLowering.Lowering
