/-
  Model repositories: models kept in relational tables.

  * A row is a list of cells in column order; the tables are read in the
    order of their sort columns, `null` before numbers before texts.
  * Packages and objects are read whole before they are added, so that an
    object may name a later one as its parent.
  * Attributes of an enumeration are its literals, operations of a state are
    its do-activities, and connectors are generalizations, dependencies,
    associations or transitions by their type.
  * `Connection.load` is the whole import: the data source is opened and
    checked, then `Tables.load` runs its five steps.
-/
import ObjectLowering.Model.Registry
import ObjectLowering.Text.Numeral
import ObjectLowering.Text.Parts

namespace ObjectLowering.Model

/-! ## Cells and rows -/

/-- A cell of a table. -/
inductive Cell where
  | null
  | int (n : Int)
  | text (s : String)
deriving DecidableEq, Repr

/-- A row in column order. -/
abbrev Row := List Cell

/-- The order of cells. -/
def Cell.le : Cell → Cell → Bool
  | .null, _ => true
  | .int _, .null => false
  | .int a, .int b => a ≤ b
  | .int _, .text _ => true
  | .text a, .text b => decide (a ≤ b)
  | .text _, _ => false

namespace Row

/-- The cell of a column. -/
def cell (r : Row) (column : Nat) : Cell := r.getD column .null

/-- The order of rows by a list of columns. -/
def le (r s : Row) : List Nat → Bool
  | [] => true
  | c :: cs =>
    let a := cell r c
    let b := cell s c
    if a = b then le r s cs else a.le b

/-- The text of a column; `null` is empty. -/
def text (r : Row) (column : Nat) : String :=
  match cell r column with
  | .null => ""
  | .int n => toString n
  | .text s => s

/-- A number that has to be there; a text counts if it spells one. -/
def required? (r : Row) (column : Nat) : Option Int :=
  match cell r column with
  | .null => none
  | .int n => some n
  | .text s => Text.signed64? (Text.digitsInBase? 10) s.toList

/-- A number that may be missing: `null` is zero. -/
def number? (r : Row) (column : Nat) : Option Int :=
  if cell r column = .null then some 0 else required? r column

end Row

/-- The tables of a repository; `none` is a table that does not exist. -/
structure Tables where
  packages : Option (List Row) := some []
  objects : Option (List Row) := some []
  attributes : Option (List Row) := some []
  operations : Option (List Row) := some []
  parameters : Option (List Row) := some []
  connectors : Option (List Row) := some []

/-- A data source without tables. -/
def Tables.absent : Tables :=
  { packages := none, objects := none, attributes := none, operations := none
    parameters := none, connectors := none }

/-- The steps of an import. -/
inductive ImportStep where
  | packages
  | objects
  | attributes
  | operations
  | connectors
deriving DecidableEq, Repr

/-- The name of a step in messages. -/
def ImportStep.name : ImportStep → String
  | packages => "packages"
  | objects => "objects"
  | attributes => "attributes"
  | operations => "operations"
  | connectors => "connectors"

/-- Why a repository yields no registry. -/
inductive RepositoryError where
  | noSource
  | openFailed (driver cause : String)
  | pingFailed (driver cause : String)
  /-- The work was cancelled before the data source answered. -/
  | canceled (driver : String)
  | missingTable
  | unreadableCell
  | refused (step : ImportStep) (cause : AddError)
deriving DecidableEq, Repr

/-- The text of a repository error. -/
def RepositoryError.message : RepositoryError → String
  | noSource => "repository dsn required"
  | openFailed driver cause => "open " ++ driver ++ " repository: " ++ cause
  | pingFailed driver cause => "ping " ++ driver ++ " repository: " ++ cause
  | canceled driver => "ping " ++ driver ++ " repository: context canceled"
  | missingTable => "table does not exist"
  | unreadableCell => "cell cannot be read"
  | refused step cause => "load " ++ step.name ++ ": " ++ cause.message

/-! ## The loader -/

/-- An object row that was read: its guid, its parent and the element it became, if any. -/
structure LoadedObject where
  guid : String
  parent : String := ""
  element : Option Element := none

/-- What the steps of an import share. -/
structure Loader where
  registry : Registry := {}
  packages : List (Int × String) := []
  objects : List (Int × LoadedObject) := []
  /-- Ids of events by name. -/
  events : List (String × String) := []

/-- The guid of a row, or a text made from its kind and number. -/
def guidOr (guid kind : String) (id : Int) : String :=
  if Text.isBlankText guid then kind ++ ":" ++ toString id else guid

namespace Loader

/-- The rows of a table sorted by columns. -/
def sorted (table : Option (List Row)) (columns : List Nat) : Except RepositoryError (List Row) :=
  match table with
  | none => .error .missingTable
  | some rows => .ok (rows.mergeSort fun a b => Row.le a b columns)

/-- A cell that was read, or the failure to read it. -/
def read {α : Type} (x : Option α) : Except RepositoryError α :=
  match x with
  | some a => .ok a
  | none => .error .unreadableCell

/-- Adds an element during a step. -/
def add (l : Loader) (step : ImportStep) (e : Element) : Except RepositoryError Loader :=
  match l.registry.add e with
  | .ok r => .ok { l with registry := r }
  | .error cause => .error (.refused step cause)

/-- The object with this number. -/
def object? (l : Loader) (id : Int) : Option LoadedObject := l.objects.lookup id

/-- The package guid with this number, empty if there is none. -/
def packageGuid (l : Loader) (id : Int) : String := (l.packages.lookup id).getD ""

/-- Replaces what is known of an object. -/
def setObject (l : Loader) (id : Int) (o : LoadedObject) : Loader :=
  { l with objects := l.objects.map fun e => if e.1 = id then (id, o) else e }

/-- Replaces an element of the registry. -/
def replace (l : Loader) (e : Element) : Loader :=
  { l with registry.elements := l.registry.elements.map fun x => if x.id = e.id then e else x }

/-! ## Packages and objects -/

/-- A package row. -/
structure PackageRow where
  id : Int
  name : String
  parent : Int
  guid : String

/-- Reads a package row. -/
def packageRow (r : Row) : Except RepositoryError PackageRow := do
  let id ← read (Row.required? r 0)
  let parent ← read (Row.number? r 2)
  return { id, name := Row.text r 1, parent, guid := guidOr (Row.text r 3) "package" id }

/-- Enters a number into a table whose later entries win. -/
def enter {α : Type} (table : List (Int × α)) (id : Int) (a : α) : List (Int × α) :=
  (id, a) :: table.filter fun e => e.1 != id

/-- The packages step. -/
def loadPackages (l : Loader) (table : Option (List Row)) : Except RepositoryError Loader := do
  let rows ← (← sorted table [0]).mapM packageRow
  let l := { l with packages := rows.foldl (fun t r => enter t r.id r.guid) l.packages }
  rows.foldlM (fun l r => l.add .packages (.package {
    id := l.packageGuid r.id, name := r.name, parent := l.packageGuid r.parent })) l

/-- An object row. -/
structure ObjectRow where
  id : Int
  type : String
  name : String
  package : Int
  parent : Int
  stereotype : String
  isAbstract : Bool
  nodeType : Int
  aliasBase : String
  guid : String

/-- Reads an object row. -/
def objectRow (r : Row) : Except RepositoryError ObjectRow := do
  let id ← read (Row.required? r 0)
  let package ← read (Row.number? r 3)
  let parent ← read (Row.number? r 4)
  let isAbstract ← read (Row.number? r 6)
  let nodeType ← read (Row.number? r 7)
  return {
    id, type := Row.text r 1, name := Row.text r 2, package, parent
    stereotype := Row.text r 5, isAbstract := isAbstract != 0, nodeType
    aliasBase := Row.text r 8, guid := guidOr (Row.text r 9) "object" id }

/-- The vertex of a state node by its type code; an unknown code is a junction. -/
def stateNode (x : Identity) (code : Int) : Element :=
  if code = 4 then .state { x with isFinal := true }
  else if code = 3 then .pseudoState { x with pseudoKind := .initial }
  else if code = 5 then .pseudoState { x with pseudoKind := .shallowHistory }
  else if code = 15 then .pseudoState { x with pseudoKind := .other "deepHistory" }
  else if code = 11 then .pseudoState { x with pseudoKind := .other "choice" }
  else .pseudoState { x with pseudoKind := .other "junction" }

/-- The element of an object row by its type; other types, such as notes, have none. -/
def objectElement? (x : Identity) (r : ObjectRow) : Option Element :=
  let type := Text.toLower r.type
  if type = "class" ∨ type = "interface" then
    some (.classifier { x with kind := .objectClass, isAbstract := r.isAbstract })
  else if type = "datatype" then
    some (.classifier { x with kind := .dataType, isAbstract := r.isAbstract })
  else if type = "enumeration" then some (.classifier { x with kind := .enumeration })
  else if type = "primitivetype" then
    some (.classifier { x with kind := .primitiveType, aliasBase := r.aliasBase })
  else if type = "statemachine" then some (.stateMachine { x with })
  else if type = "state" then some (.state { x with })
  else if type = "finalstate" then some (.state { x with isFinal := true })
  else if type = "statenode" then some (stateNode x r.nodeType)
  else if type = "trigger" ∨ type = "event" then some (.event { x with })
  else none

/-- Adds the element of one object row. -/
def loadObject (l : Loader) (r : ObjectRow) : Except RepositoryError Loader :=
  match l.object? r.id with
  | none => .ok l
  | some o =>
    let parent := match l.object? r.parent with
      | some p => if r.parent ≠ 0 then p.guid else l.packageGuid r.package
      | none => l.packageGuid r.package
    let x : Identity := { id := o.guid, name := r.name, parent, stereotype := r.stereotype }
    match objectElement? x r with
    | none => .ok (l.setObject r.id { o with parent })
    | some e =>
      let l := l.setObject r.id { o with parent, element := some e }
      let l := match e with
        | .event _ => { l with events := (r.name, o.guid) :: l.events }
        | _ => l
      l.add .objects e

/-- The objects step. -/
def loadObjects (l : Loader) (table : Option (List Row)) : Except RepositoryError Loader := do
  let rows ← (← sorted table [0]).mapM objectRow
  let l := { l with
    objects := rows.foldl (fun t r => enter t r.id { guid := r.guid }) l.objects }
  rows.foldlM loadObject l

/-! ## Attributes -/

/-- The multiplicity of a lower and an upper bound. -/
def boundsMultiplicity (lower upper : String) : Multiplicity :=
  let lo := Text.trim lower
  let hi := Text.trim upper
  .normalize (if lo = hi then lo else if lo = "" then hi else lo ++ ".." ++ hi)

/-- The longest signed 64-bit number at the start of a text. -/
def leadingInt? (s : String) : Option Int :=
  Text.signed64? (fun cs => Text.natLiteral? (Text.literalFront cs))
    (Text.trimList Text.isBlank s.toList)

/-- The id of the object that a written number refers to, empty if there is none. -/
def objectRef (l : Loader) (raw : String) : String :=
  match leadingInt? raw with
  | none => ""
  | some n => if n = 0 then "" else ((l.object? n).map (·.guid)).getD ""

/-- The attribute of a row. -/
def attributeElement (l : Loader) (r : Row) (id : Int) (owner : String) (isDerived : Bool) :
    Element := .attribute {
  id := guidOr (Row.text r 11) "attribute" id, name := Row.text r 2, parent := owner
  typed := {
    visibility := Text.toLower (Row.text r 9), type := l.objectRef (Row.text r 4)
    typeName := Row.text r 3, multiplicity := boundsMultiplicity (Row.text r 5) (Row.text r 6)
    aggregation := .none, isDerived, default := Row.text r 7 } }

/-- Adds one attribute row. -/
def loadAttribute (l : Loader) (r : Row) : Except RepositoryError Loader := do
  let id ← read (Row.required? r 0)
  let owner ← read (Row.required? r 1)
  let derived ← read (Row.number? r 8)
  match l.object? owner with
  | none => return l
  | some o =>
    match o.element with
    | none => return l
    | some (.classifier c) =>
      if c.kind = .enumeration then
        let c := { c with literals := c.literals ++ [Row.text r 2] }
        let l := l.setObject owner { o with element := some (.classifier c) }
        return l.replace (.classifier c)
      else l.add .attributes (l.attributeElement r id o.guid (derived != 0))
    | some _ => l.add .attributes (l.attributeElement r id o.guid (derived != 0))

/-- The attributes step. -/
def loadAttributes (l : Loader) (table : Option (List Row)) : Except RepositoryError Loader := do
  (← sorted table [1, 10, 0]).foldlM loadAttribute l

/-! ## Operations -/

/-- Reads a parameter row: its operation and the parameter. -/
def parameterRow (r : Row) : Except RepositoryError (Int × Parameter) := do
  let operation ← read (Row.required? r 0)
  return (operation, { name := Row.text r 1, type := Row.text r 2 })

/-- Adds one operation row: a do-activity of a state, or an operation. -/
def loadOperation (parameters : List (Int × Parameter)) (l : Loader) (r : Row) :
    Except RepositoryError Loader := do
  let id ← read (Row.required? r 0)
  let owner ← read (Row.required? r 1)
  let query ← read (Row.number? r 5)
  match (l.object? owner).bind fun o => o.element.map fun e => (o.guid, e) with
  | none => return l
  | some (guid, e) =>
    let x : Identity := {
      id := guidOr (Row.text r 9) "operation" id, name := Row.text r 2, parent := guid
      stereotype := Row.text r 6 }
    match e with
    | .state _ =>
      if !Text.foldEq (Row.text r 6) "do" then return l
      let code := Row.text r 7
      let body := if Text.isBlankText code then Row.text r 2 ++ "()" else code
      l.add .operations (.action { x with body })
    | _ => l.add .operations (.operation { x with
        visibility := Text.toLower (Row.text r 4), returns := Row.text r 3
        parameters := (parameters.filter (·.1 == id)).map (·.2), isQuery := query != 0 })

/-- The operations step. -/
def loadOperations (l : Loader) (parameters operations : Option (List Row)) :
    Except RepositoryError Loader := do
  let parameters ← (← sorted parameters [0, 3]).mapM parameterRow
  (← sorted operations [1, 8, 0]).foldlM (loadOperation parameters) l

/-! ## Connectors -/

/-- A connector row. -/
structure ConnectorRow where
  guid : String
  row : Row
  sourceNavigable : Bool
  targetNavigable : Bool
  sourceAggregate : Int
  targetAggregate : Int

/-- One end of an association connector. -/
def connectorEnd (c : ConnectorRow) (suffix : String) (type : LoadedObject) (typeName : String)
    (role card qualifier : Nat) (navigable : Bool) (aggregate : Int) : Element :=
  .associationEnd {
    id := c.guid ++ suffix, name := Row.text c.row role, parent := c.guid
    rawQualifier := Row.text c.row qualifier, isNavigable := navigable
    typed := {
      type := type.guid, typeName
      multiplicity := .normalize (Row.text c.row card)
      aggregation := .normalize (toString aggregate) } }

/-- Adds an association with its two ends. -/
def loadAssociation (l : Loader) (c : ConnectorRow) (source target : LoadedObject)
    (sourceName targetName : String) : Except RepositoryError Loader := do
  let l ← l.add .connectors (.association {
    id := c.guid, name := Row.text c.row 2, stereotype := Row.text c.row 3 })
  let l ← l.add .connectors (connectorEnd c "/source" source sourceName 6 8 14
    c.sourceNavigable c.sourceAggregate)
  l.add .connectors (connectorEnd c "/target" target targetName 7 9 15
    c.targetNavigable c.targetAggregate)

/-- The id of a named event; an unknown one is added. -/
def eventId (l : Loader) (name : String) : Except RepositoryError (Loader × String) :=
  match l.events.lookup name with
  | some id => .ok (l, id)
  | none => do
    let id := "event:" ++ name
    let l ← l.add .connectors (.event { id, name })
    return ({ l with events := (name, id) :: l.events }, id)

/-- Adds a transition with its events and effects. -/
def loadTransition (l : Loader) (c : ConnectorRow) (source target : LoadedObject) :
    Except RepositoryError Loader := do
  let (l, triggers) ← (Text.parts ',' (Row.text c.row 16)).foldlM (fun (l, ids) name => do
    let (l, id) ← l.eventId name
    return (l, ids ++ [id])) (l, [])
  let l ← l.add .connectors (.transition {
    id := c.guid, name := Row.text c.row 2, parent := source.parent
    source := source.guid, target := target.guid
    guard := Text.trim (Row.text c.row 17), triggers })
  let effects := (Text.parts '\n' (Row.text c.row 18)).mapIdx fun i body => Element.action {
    id := c.guid ++ "/effect/" ++ toString (i + 1), parent := c.guid, body }
  effects.foldlM (fun l e => l.add .connectors e) l

/-- Adds one connector row. -/
def loadConnector (l : Loader) (r : Row) : Except RepositoryError Loader := do
  let id ← read (Row.required? r 0)
  let start ← read (Row.required? r 4)
  let stop ← read (Row.required? r 5)
  let sourceNavigable ← read (Row.number? r 10)
  let targetNavigable ← read (Row.number? r 11)
  let sourceAggregate ← read (Row.number? r 12)
  let targetAggregate ← read (Row.number? r 13)
  let c : ConnectorRow := {
    guid := guidOr (Row.text r 19) "connector" id, row := r
    sourceNavigable := sourceNavigable != 0, targetNavigable := targetNavigable != 0
    sourceAggregate, targetAggregate }
  match l.object? start, l.object? stop with
  | some source, some target =>
    match source.element, target.element with
    | some s, some t =>
      let type := Text.toLower (Row.text r 1)
      if type = "generalization" ∨ type = "realisation" ∨ type = "realization" then
        l.add .connectors (.generalization {
          id := c.guid, parent := source.guid, general := target.guid, visibility := "public"
          isRealization := !Text.foldEq (Row.text r 1) "generalization" })
      else if type = "dependency" ∨ type = "usage" ∨ type = "abstraction" then
        l.add .connectors (.dependency {
          id := c.guid, parent := source.guid, stereotype := Row.text r 3
          supplier := target.guid })
      else if type = "association" ∨ type = "aggregation" then
        l.loadAssociation c source target s.identity.name t.identity.name
      else if type = "stateflow" ∨ type = "transition" then l.loadTransition c source target
      else return l
    | _, _ => return l
  | _, _ => return l

/-- The connectors step. -/
def loadConnectors (l : Loader) (table : Option (List Row)) : Except RepositoryError Loader := do
  (← sorted table [0]).foldlM loadConnector l

end Loader

/-- The registry of a repository, not prepared. -/
def Tables.load (t : Tables) : Except RepositoryError Registry := do
  let l ← Loader.loadPackages {} t.packages
  let l ← l.loadObjects t.objects
  let l ← l.loadAttributes t.attributes
  let l ← l.loadOperations t.parameters t.operations
  let l ← l.loadConnectors t.connectors
  return l.registry

/-! ## Connections -/

/-- The driver of a repository: the one that is named, else by the form of the data source. -/
def repositoryDriver (driver source : String) : String :=
  let d := Text.toLower driver
  if d = "postgres" ∨ d = "postgresql" ∨ d = "pgx" then "pgx"
  else if d = "sqlite" then "sqlite"
  else if "postgres://".toList.isPrefixOf source.toList ∨
      "postgresql://".toList.isPrefixOf source.toList then "pgx"
  else "sqlite"

/-- How a data source answers when it is opened. -/
inductive Answer where
  | opens
  | failsToOpen (cause : String)
  | failsToPing (cause : String)
  | cancels

/-- A data source: where it is, how it answers and what it holds. -/
structure Connection where
  driver : String := ""
  source : String
  answer : Answer := .opens
  tables : Tables := {}

/-- The driver and source that are opened; nothing is opened without a source. -/
def Connection.opened (c : Connection) : Option (String × String) :=
  if c.source = "" then none else some (repositoryDriver c.driver c.source, c.source)

/-- Opens a repository and imports it. -/
def Connection.load (c : Connection) : Except RepositoryError Registry :=
  let driver := repositoryDriver c.driver c.source
  if c.source = "" then .error .noSource
  else match c.answer with
    | .failsToOpen cause => .error (.openFailed driver cause)
    | .failsToPing cause => .error (.pingFailed driver cause)
    | .cancels => .error (.canceled driver)
    | .opens => c.tables.load

end ObjectLowering.Model
