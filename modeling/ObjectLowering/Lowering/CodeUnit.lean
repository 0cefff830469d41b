/-
  The result of lowering one classifier.

  A unit holds the text of the declaration and of the definition, the ids of
  the class, and what other code the text depends on.
-/
import ObjectLowering.Code.Stream
import ObjectLowering.Lowering.Location
import ObjectLowering.Text.Order

namespace ObjectLowering.Lowering

open Model Code Text

/-- Counters of one lowered classifier. -/
structure Stats where
  features : Nat := 0
  references : Nat := 0
  machines : Nat := 0
  ids : Nat := 0
  diagnostics : Nat := 0
deriving DecidableEq, Repr

/-- What the text of a unit depends on, each list sorted and without repetition. -/
structure Needs where
  /-- Units that have to be defined before. -/
  includes : List String := []
  /-- Names that have to be declared before. -/
  forwards : List String := []
  /-- Headers of the standard library. -/
  headers : List String := ["cstdint"]
deriving DecidableEq, Repr

/-- A lowered classifier. -/
structure CodeUnit where
  classifier : Classifier
  family : Family
  features : Option Features := none
  machineCount : Nat := 0
  /-- The ids of the class in the order of allocation. -/
  ids : List IdEntry := []
  /-- The members that refer to other objects. -/
  references : List Member := []
  events : List String := []
  needs : Needs := {}
  declaration : String
  definition : String := ""
  diagnostics : List Diagnostic := []
deriving DecidableEq, Repr

namespace CodeUnit

/-- The name of the unit in the generated code. -/
def name (u : CodeUnit) : String := ident u.classifier.name

/-- The members of the unit. -/
def data (u : CodeUnit) : List Member := (u.features.map (·.data)).getD []

/-- The counters of the unit. -/
def stats (u : CodeUnit) : Stats :=
  { features := u.data.length, references := u.references.length, machines := u.machineCount
    ids := u.ids.length, diagnostics := u.diagnostics.length }

end CodeUnit

/-! ## Dependencies of members -/

/-- The standard headers that a member needs. -/
def Storage.headers (s : Storage) : List String :=
  (match s.shape with
    | .optional => if s.isShared then [] else ["optional"]
    | .keyed => ["map"]
    | .scalar => []) ++
  (if s.isShared then ["memory"] else []) ++
  if classify s.element = .text ∨ classify s.key = .text then ["string"] else []

/-- The classifier that a member depends on, unless it is the class itself. -/
def Storage.dependency (s : Storage) (self : Classifier) : Option Classifier :=
  s.classifier.filter fun c => c.id != self.id

/-- What the members of a class need. A name that has to be defined is not declared as well. -/
def needsOf (self : Classifier) (members : List Member) : Needs :=
  let storages := members.map (·.storage)
  let includes := storages.filterMap fun s =>
    if s.needsDefinition then (s.dependency self).map fun c => ident c.name else none
  let forwards := storages.filterMap fun s =>
    if s.isForwardOnly then (s.dependency self).map fun c => ident c.name else none
  { includes := sortedSet includes
    forwards := sortedSet (forwards.filter fun n => !includes.contains n)
    headers := sortedSet ("cstdint" :: storages.flatMap Storage.headers) }

/-! ## Declarations -/

/-- The line that declares a member. Only plain scalars keep their default. -/
def Member.line (m : Member) : String :=
  let value := trim m.feature.typed.default
  let initializer :=
    if value ≠ "" ∧ m.storage.shape = .scalar ∧ !m.storage.isShared then
      "\x7b" ++ value ++ "\x7d"
    else ""
  m.storage.type ++ " " ++ m.ident ++ initializer ++ ";"

/-- The line that declares an operation. -/
def operationLine (o : Operation) : String :=
  let returns := if isBlankText o.returns then "void" else o.returns
  let parameters := o.parameters.map fun p => spell p.type ++ " " ++ ident p.name
  spell returns ++ " " ++ ident o.name ++ "(" ++ String.intercalate ", " parameters ++ ")" ++
    (if o.isQuery then " const" else "") ++ ";"

/-- The declaration of an enumeration. -/
def enumerationEdits (name : String) (literals : List String) : List Edit :=
  .opening ("enum class " ++ name ++ " : uint64_t") ::
    literals.mapIdx (fun i l => Edit.line (ident l ++ " = " ++ toString i ++ ",")) ++ [.closing ";"]

/-- The declaration of a struct. -/
def structEdits (name : String) (features : Features) : List Edit :=
  .opening ("struct " ++ name) ::
    features.data.map (fun m => Edit.line m.line) ++ [.closing ";"]

/-- The declaration of an alias. -/
def aliasDeclaration (c : Classifier) : String :=
  "using " ++ ident c.name ++ " = " ++ spell (elementName c) ++ ";\n"

end ObjectLowering.Lowering
