/-
  Model documents: a model written as a tree of nodes.

  A node's parent is the node it is listed under; references are ids.  A node
  without an id gets a name-based id of its path, so the same document always
  yields the same ids.  The short forms `extends`, `imports`, `do` and
  `actions` stand for owned elements in front of the node's children.

  * `Node.entries` lists the elements a node stands for, in order.
  * `Document.registry` adds the entries of all nodes, up to the first that
    is refused.
-/
import ObjectLowering.Digest.Uuid
import ObjectLowering.Model.Registry

namespace ObjectLowering.Model

/-- The fields of a node, its children apart. Only those that its kind needs are read. -/
structure NodeFields where
  id : String := ""
  kind : String := ""
  name : String := ""
  stereotype : String := ""
  tags : List (String × String) := []
  isAbstract : Bool := false
  base : String := ""
  literals : List String := []
  extend : List String := []
  imports : List String := []
  visibility : String := ""
  type : String := ""
  typeName : String := ""
  multiplicity : String := ""
  aggregation : String := ""
  isDerived : Bool := false
  default : String := ""
  qualifier : String := ""
  isNavigable : Bool := false
  returns : String := ""
  parameters : List Parameter := []
  isQuery : Bool := false
  general : String := ""
  isRealization : Bool := false
  supplier : String := ""
  pseudo : String := ""
  isFinal : Bool := false
  activities : List String := []
  source : String := ""
  target : String := ""
  guard : String := ""
  triggers : List String := []
  actions : List String := []
  body : String := ""

/-- One node of a document. -/
inductive Node where
  | mk (fields : NodeFields) (children : List Node)

/-- A document: its top-level nodes. -/
structure Document where
  nodes : List Node := []

/-- Why a document yields no registry. -/
inductive DocumentError where
  | refused (path : String) (cause : AddError)
  | unknownKind (path kind : String)
deriving DecidableEq, Repr

/-- The text of a document error. -/
def DocumentError.message : DocumentError → String
  | refused path cause => path ++ ": " ++ cause.message
  | unknownKind path kind => path ++ ": unknown element kind " ++ Text.quote kind

/-- The namespace of generated ids. -/
def modelNamespace : Digest.Uuid := .ofName .urlNamespace "simgen:model"

/-- The id generated for a path. -/
def generatedId (path : String) : String := (modelNamespace.ofName path).text

/-- An element of a document, or the unknown kind of a node, with the path of its node. -/
structure Entry where
  path : String
  content : Except String Element

namespace NodeFields

/-- The values of a feature node: loose spellings are normalized, and a referenced type also
    serves as type text. -/
def typed (n : NodeFields) : Typed where
  visibility := n.visibility
  type := n.type
  typeName := if n.type ≠ "" ∧ n.typeName = "" then n.type else n.typeName
  multiplicity := .normalize n.multiplicity
  aggregation := .normalize n.aggregation
  isDerived := n.isDerived
  default := n.default

/-- The kind of a node and whether it is final; `FinalState` is a final state. -/
def kind? (n : NodeFields) : Option (Kind × Bool) :=
  if Text.foldEq n.kind "FinalState" then some (.state, true)
  else (Kind.ofName? n.kind).map fun k => (k, n.isFinal)

/-- The element of a node, given its identity. -/
def element? (n : NodeFields) (x : Identity) : Option Element :=
  n.kind?.map fun
    | (.package, _) => .package { x with }
    | (.classifier k, _) => .classifier { x with
        kind := k, isAbstract := n.isAbstract, aliasBase := n.base, literals := n.literals }
    | (.attribute, _) => .attribute { x with typed := n.typed }
    | (.association, _) => .association { x with }
    | (.associationEnd, _) => .associationEnd { x with
        typed := n.typed, rawQualifier := n.qualifier, isNavigable := n.isNavigable }
    | (.operation, _) => .operation { x with
        visibility := n.visibility, returns := n.returns, parameters := n.parameters
        isQuery := n.isQuery }
    | (.generalization, _) => .generalization { x with
        general := n.general, visibility := n.visibility, isRealization := n.isRealization }
    | (.dependency, _) => .dependency { x with supplier := n.supplier }
    | (.stateMachine, _) => .stateMachine { x with }
    | (.state, final) => .state { x with isFinal := final }
    | (.pseudoState, _) => .pseudoState { x with pseudoKind := .ofText n.pseudo }
    | (.transition, _) => .transition { x with
        source := n.source, target := n.target, guard := n.guard, triggers := n.triggers }
    | (.event, _) => .event { x with }
    | (.action, _) => .action { x with body := n.body }

/-- The path of a node: the path of its position, its kind and its name. -/
def pathAt (n : NodeFields) (position : String) : String :=
  position ++ ":" ++ n.kind ++ ":" ++ n.name

/-- The id of a node at a path. -/
def idAt (n : NodeFields) (path : String) : String := if n.id = "" then generatedId path else n.id

/-- The identity of the `i`-th owned element of a short form. -/
def shortIdentity (owner path form : String) (i : Nat) : Identity :=
  { id := generatedId (path ++ "/" ++ form ++ "/" ++ toString i), parent := owner }

/-- The elements of the short forms of a node. -/
def shortElements (n : NodeFields) (owner path : String) : List Element :=
  n.extend.mapIdx (fun i general => .generalization
    { shortIdentity owner path "extends" i with general, visibility := "public" }) ++
  n.imports.mapIdx (fun i supplier => .dependency
    { shortIdentity owner path "imports" i with supplier, stereotype := importStereotype }) ++
  n.activities.mapIdx (fun i body => .action { shortIdentity owner path "do" i with body }) ++
  n.actions.mapIdx (fun i body => .action { shortIdentity owner path "actions" i with body })

/-- The entries of a node without its children. -/
def ownEntries (n : NodeFields) (parent path : String) : List Entry :=
  let id := n.idAt path
  let x : Identity := { id, name := n.name, parent, stereotype := n.stereotype, tags := n.tags }
  { path, content := match n.element? x with
      | some e => .ok e
      | none => .error n.kind } ::
  (n.shortElements id path).map fun e => { path, content := .ok e }

end NodeFields

namespace Node

mutual

/-- The entries of a node and of everything below it, depth first. -/
def entries (parent position : String) : Node → List Entry
  | .mk n children =>
    let path := n.pathAt position
    n.ownEntries parent path ++ listEntries (n.idAt path) (path ++ "/") 0 children

/-- The entries of nodes listed under one parent, numbered from `i` on. -/
def listEntries (parent position : String) (i : Nat) : List Node → List Entry
  | [] => []
  | n :: rest =>
    entries parent (position ++ toString i) n ++ listEntries parent position (i + 1) rest

end

end Node

/-- Adds one entry. -/
def Entry.addTo (r : Registry) (e : Entry) : Except DocumentError Registry :=
  match e.content with
  | .error kind => .error (.unknownKind e.path kind)
  | .ok x => match r.add x with
    | .ok r => .ok r
    | .error cause => .error (.refused e.path cause)

/-- The entries of a document. -/
def Document.entries (d : Document) : List Entry := Node.listEntries "" "/" 0 d.nodes

/-- The registry of a document, not prepared. -/
def Document.registry (d : Document) : Except DocumentError Registry :=
  d.entries.foldlM Entry.addTo {}

end ObjectLowering.Model
