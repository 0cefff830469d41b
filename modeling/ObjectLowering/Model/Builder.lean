/-
  Building a model step by step, with generated ids.

  Every element gets the id `<Kind>-<number>`, numbered in the order of the
  calls, which is also the order of declaration.
-/
import ObjectLowering.Model.Registry

namespace ObjectLowering.Model

/-- A registry under construction. -/
structure Builder where
  registry : Registry := {}
  /-- How many ids were given out. -/
  count : Nat := 0
  /-- Ids of events by name. -/
  events : List (String × String) := []

namespace Builder

/-- Adds the element that `make` gives for a fresh id of a kind. -/
def insert (b : Builder) (kind : Kind) (make : String → Element) : Builder × String :=
  let id := kind.name ++ "-" ++ toString (b.count + 1)
  ({ b with
      count := b.count + 1
      registry := { b.registry with elements := b.registry.elements ++ [make id] } }, id)

/-- Adds a classifier; the id in `c` is replaced. -/
def classifier (b : Builder) (c : Classifier) : Builder × String :=
  b.insert (.classifier c.kind) fun id => .classifier { c with id }

/-- Adds an attribute. A type also gives its name as type text when none is given. -/
def addAttribute (b : Builder) (owner name : String) (type : Option Classifier) (typeName : String)
    (multiplicity : Multiplicity) : Builder × String :=
  let typeText := match type with
    | some t => if typeName = "" then t.name else typeName
    | none => typeName
  b.insert .attribute fun id => .attribute {
    id, name, parent := owner
    typed := { type := (type.map (·.id)).getD "", typeName := typeText, multiplicity } }

/-- Adds an association whose navigable end becomes a feature of `owner`; gives that end. -/
def associate (b : Builder) (owner : Classifier) (name : String) (target : Classifier)
    (multiplicity : Multiplicity) (aggregation : Aggregation) (qualifier : String) :
    Builder × String :=
  let (b, association) := b.insert .association fun id => .association {
    id, name := owner.name ++ "_" ++ name }
  let (b, _) := b.insert .associationEnd fun id => .associationEnd {
    id, parent := association, typed := { type := owner.id, typeName := owner.name } }
  b.insert .associationEnd fun id => .associationEnd {
    id, name, parent := association, rawQualifier := qualifier, isNavigable := true
    typed := { type := target.id, typeName := target.name, multiplicity, aggregation } }

/-- Adds an operation. -/
def operation (b : Builder) (owner name returns : String) (parameters : List Parameter) :
    Builder × String :=
  b.insert .operation fun id => .operation { id, name, parent := owner, returns, parameters }

/-- Makes one classifier inherit from another. -/
def generalize (b : Builder) (specific general : String) : Builder × String :=
  b.insert .generalization fun id => .generalization {
    id, parent := specific, general, visibility := "public" }

/-- Adds a dependency. -/
def depend (b : Builder) (client supplier stereotype : String) : Builder × String :=
  b.insert .dependency fun id => .dependency { id, parent := client, supplier, stereotype }

/-- Adds a state machine. -/
def machine (b : Builder) (owner name : String) : Builder × String :=
  b.insert .stateMachine fun id => .stateMachine { id, name, parent := owner }

/-- Adds a state, final or not. -/
def state (b : Builder) (owner name : String) (isFinal : Bool) : Builder × String :=
  b.insert .state fun id => .state { id, name, parent := owner, isFinal }

/-- Adds a pseudostate. -/
def pseudo (b : Builder) (owner : String) (pseudoKind : PseudoKind) (name : String) :
    Builder × String :=
  b.insert .pseudoState fun id => .pseudoState { id, name, parent := owner, pseudoKind }

/-- Adds an action. -/
def action (b : Builder) (owner body : String) : Builder × String :=
  b.insert .action fun id => .action { id, parent := owner, body }

/-- Adds a transition with its effects; it lies where its source lies. -/
def transition (b : Builder) (source : Identity) (target guard : String) (effects : List String) :
    Builder × String :=
  let (b, t) := b.insert .transition fun id => .transition {
    id, parent := source.parent, source := source.id, target, guard }
  (effects.foldl (fun b body => (b.action t body).1) b, t)

/-- Attaches a named event to a transition; the event is added when it is new. -/
def trigger (b : Builder) (transition event : String) : Builder :=
  let (b, id) := match b.events.lookup event with
    | some id => (b, id)
    | none =>
      let (b, id) := b.insert .event fun id => .event { id, name := event }
      ({ b with events := (event, id) :: b.events }, id)
  let attach : Element → Element
    | .transition t =>
      if t.id = transition then .transition { t with triggers := t.triggers ++ [id] }
      else .transition t
    | e => e
  { b with registry := { b.registry with elements := b.registry.elements.map attach } }

end Builder

end ObjectLowering.Model
