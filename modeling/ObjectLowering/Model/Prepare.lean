/-
  Preparing a model: every element is attached to its owner, and everything
  that does not fit is reported.

  * `settle` completes an element on its own: a missing aggregation is none,
    a written qualifier is parsed, a state with a shallow-history child has
    history.
  * `attach` enters one element into the list of its owner; running it over
    the registry in order gives the owned lists.
  * `attachEnd` gives a navigable end to the classifier at the opposite end.
  * `findings` and `associationFindings` are the diagnostics.

  A registry is prepared once; elements that are added later stay without an
  owner.
-/
import ObjectLowering.Model.Registry

namespace ObjectLowering.Model

open Text (quote)

namespace Registry

/-- A shallow-history pseudostate lies directly in the state with this id. -/
def remembers (r : Registry) (state : String) : Bool :=
  r.elements.any fun
    | .pseudoState p => p.pseudoKind == .shallowHistory && p.parent == state
    | _ => false

/-- Completes one element. -/
def settle (r : Registry) : Element → Element
  | .attribute a =>
    .attribute { a with typed.aggregation := a.typed.aggregation.settle }
  | .associationEnd e =>
    .associationEnd { e with
      typed.aggregation := e.typed.aggregation.settle
      qualifier := Qualifier.parse e.rawQualifier }
  | .state s => .state { s with hasHistory := r.remembers s.id }
  | e => e

/-! ## Ownership -/

/-- The vertices of a machine or a state can be attached to it. -/
def ownsVertices (r : Registry) (id : String) : Bool :=
  match r.lookup id with
  | some (.stateMachine _) | some (.state _) => true
  | _ => false

/-- Actions can be attached to a state or a transition. -/
def ownsActions (r : Registry) (id : String) : Bool :=
  match r.lookup id with
  | some (.state _) | some (.transition _) => true
  | _ => false

/-- Enters an element into the list of its owner, if it has one. -/
def attach (r : Registry) (l : Links) : Element → Links
  | .attribute x =>
    if (r.classifier? x.parent).isSome then
      l.update x.parent fun o => { o with attributes := o.attributes ++ [x] }
    else l
  | .associationEnd x =>
    if (r.association? x.parent).isSome then
      l.update x.parent fun o => { o with members := o.members ++ [x] }
    else l
  | .operation x =>
    if (r.classifier? x.parent).isSome then
      l.update x.parent fun o => { o with operations := o.operations ++ [x] }
    else l
  | .generalization x =>
    if (r.classifier? x.parent).isSome then
      l.update x.parent fun o => { o with generalizations := o.generalizations ++ [x] }
    else l
  | .dependency x =>
    if (r.classifier? x.parent).isSome then
      l.update x.parent fun o => { o with dependencies := o.dependencies ++ [x] }
    else l
  | .stateMachine x =>
    if (r.classifier? x.parent).isSome then
      l.update x.parent fun o => { o with machines := o.machines ++ [x] }
    else l
  | .state x =>
    if r.ownsVertices x.parent then
      l.update x.parent fun o => { o with vertices := o.vertices ++ [.state x] }
    else l
  | .pseudoState x =>
    if r.ownsVertices x.parent then
      l.update x.parent fun o => { o with vertices := o.vertices ++ [.pseudo x] }
    else l
  | .transition x =>
    if (r.vertex? x.source).isSome then
      l.update x.source fun o => { o with outgoing := o.outgoing ++ [x] }
    else l
  | .action x =>
    if r.ownsActions x.parent then
      l.update x.parent fun o => { o with actions := o.actions ++ [x] }
    else l
  | .package _ | .classifier _ | .association _ | .event _ => l

/-- The navigable ends of two-ended associations, each with its opposite end, in the order of
    the associations and then of the ends. -/
def navigableEnds (r : Registry) (l : Links) : List (AssociationEnd × AssociationEnd) :=
  r.elements.flatMap fun
    | .association a =>
      match (l.of a.id).members with
      | [x, y] => [(x, y), (y, x)].filter fun p => p.1.isNavigable
      | _ => []
    | _ => []

/-- Gives a navigable end to the classifier that its opposite end is typed by. -/
def attachEnd (r : Registry) (l : Links) (p : AssociationEnd × AssociationEnd) : Links :=
  if (r.classifier? p.2.typed.type).isSome then
    l.update p.2.typed.type fun o => { o with ends := o.ends ++ [p.1] }
  else l

/-- All owned lists of a settled registry. -/
def linkAll (r : Registry) : Links :=
  let owned := r.elements.foldl r.attach {}
  (r.navigableEnds owned).foldl r.attachEnd owned

/-! ## Findings -/

/-- The report on an element whose parent is no classifier. -/
def ownerFindings (r : Registry) (e : Element) : List Diagnostic :=
  let parent := e.identity.parent
  if (r.classifier? parent).isSome then []
  else [{
    code := .orphan, element := e.id
    message := e.kind.name ++ " " ++ quote e.identity.name ++
      " has no classifier owner " ++ quote parent }]

/-- The report on the values of a feature. -/
def typedFindings (r : Registry) (id name : String) (t : Typed) : List Diagnostic :=
  (if t.multiplicity.isValid then [] else [{
    code := .invalidMultiplicity, severity := .error, element := id
    message := "multiplicity " ++ quote t.multiplicity.text ++
      " is not one of \"\", 1, 0..1, *, 0..*, 1..*" }]) ++
  (if t.aggregation.isValid then [] else [{
    code := .invalidAggregation, severity := .error, element := id
    message := "aggregation " ++ quote t.aggregation.text ++
      " is not one of none, shared, composition" }]) ++
  (if t.type = "" ∨ (r.classifier? t.type).isSome then [] else [{
    code := .unresolvedReference, element := id
    message := "type " ++ quote t.type ++ " of " ++ quote name ++
      " does not resolve, using " ++ quote t.typeName }])

/-- The report on a vertex whose parent cannot hold it. -/
def vertexFindings (r : Registry) (e : Element) : List Diagnostic :=
  let parent := e.identity.parent
  if r.ownsVertices parent then []
  else [{
    code := .orphan, element := e.id
    message := e.kind.name ++ " " ++ quote e.identity.name ++
      " has no state machine or state owner " ++ quote parent }]

/-- The report on one element, in the order the checks are made. -/
def findings (r : Registry) (e : Element) : List Diagnostic :=
  match e with
  | .attribute x => r.ownerFindings e ++ r.typedFindings x.id x.name x.typed
  | .associationEnd x =>
    (if (r.association? x.parent).isSome then [] else [{
      code := .orphan, element := x.id
      message := "association end " ++ quote x.name ++
        " has no association " ++ quote x.parent }]) ++
    (if Qualifier.isWellFormed x.rawQualifier then [] else [{
      code := .malformedQualifier, severity := .info, element := x.id
      message := "qualifier " ++ quote x.rawQualifier ++
        " has no type, using " ++ defaultKeyType }]) ++
    r.typedFindings x.id x.name x.typed
  | .operation _ | .stateMachine _ => r.ownerFindings e
  | .generalization x =>
    r.ownerFindings e ++
    (if (r.classifier? x.general).isSome then [] else [{
      code := .unresolvedReference, element := x.id
      message := "general " ++ quote x.general ++ " of " ++ quote x.parent ++
        " does not resolve" }])
  | .dependency x =>
    r.ownerFindings e ++
    (if (r.classifier? x.supplier).isSome then [] else [{
      code := .unresolvedReference, element := x.id
      message := "supplier " ++ quote x.supplier ++ " of " ++ quote x.parent ++
        " does not resolve" }]) ++
    (if !x.isImport && Text.foldEq x.stereotype importStereotype then [{
      code := .stereotypeCase, element := x.id
      message := "stereotype " ++ quote x.stereotype ++ " is not " ++
        quote importStereotype ++ " and is ignored" }] else [])
  | .state _ | .pseudoState _ => r.vertexFindings e
  | .transition x =>
    if (r.vertex? x.source).isSome then
      (if (r.vertex? x.target).isSome then [] else [{
        code := .unresolvedReference, element := x.id
        message := "transition target " ++ quote x.target ++ " does not resolve" }]) ++
      (x.triggers.filter fun t => (r.event? t).isNone).map fun t => {
        code := .unresolvedReference, element := x.id
        message := "trigger " ++ quote t ++ " does not resolve" }
    else [{
      code := .unresolvedReference, element := x.id
      message := "transition source " ++ quote x.source ++ " does not resolve" }]
  | .action x =>
    if r.ownsActions x.parent then []
    else [{
      code := .orphan, element := x.id
      message := "action " ++ quote x.name ++ " has no state or transition owner " ++
        quote x.parent }]
  | .package _ | .classifier _ | .association _ | .event _ => []

/-- The report on an association: the number of its ends, and the owners of navigable ends. -/
def associationFindings (r : Registry) (l : Links) (a : Association) : List Diagnostic :=
  match (l.of a.id).members with
  | [x, y] =>
    ([(x, y), (y, x)].filter fun p =>
      p.1.isNavigable && (r.classifier? p.2.typed.type).isNone).map fun p => {
        code := .unresolvedReference, element := p.1.id
        message := "owner " ++ quote p.2.typed.type ++ " of navigable end " ++
          quote p.1.name ++ " does not resolve" }
  | ends => [{
      code := .associationArity, severity := .error, element := a.id
      message := "association " ++ quote a.name ++ " has " ++ toString ends.length ++
        " ends, want 2" }]

/-- All associations in registration order. -/
def associations (r : Registry) : List Association :=
  r.elements.filterMap fun
    | .association x => some x
    | _ => none

/-- Links and checks every element, once; a prepared registry stays as it is. -/
def prepare (r : Registry) : Registry :=
  if r.isPrepared then r
  else
    let settled := { r with elements := r.elements.map r.settle }
    let links := settled.linkAll
    { settled with
      isPrepared := true
      links := links
      diagnostics := settled.elements.flatMap settled.findings ++
        settled.associations.flatMap (settled.associationFindings links) }

end Registry

end ObjectLowering.Model
