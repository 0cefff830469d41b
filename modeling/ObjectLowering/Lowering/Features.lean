/-
  The features of a classifier, with those of its bases and imports.

  * `ancestry` lists the classifiers whose features count, in the order they
    are met: own, then bases, then imported suppliers of the same family.
  * `declarations` lists all their features in that order.
  * `firstWins` keeps the first declaration of each name; data features and
    operations have names of their own.
  * `flatten` turns the kept declarations into members with id keys.
-/
import ObjectLowering.Lowering.IdTable
import ObjectLowering.Lowering.Storage

namespace ObjectLowering.Lowering

open Model Code Text

/-- A classifier met on the way, and whether the way left the family of the root. -/
structure Ancestor where
  classifier : Classifier
  isForeign : Bool
deriving DecidableEq, Repr

/-- The bases of an ancestor, then the suppliers that it imports from the same family. -/
def Ancestor.next (r : Registry) (root : Family) (a : Ancestor) : List Ancestor :=
  let bases := (r.bases a.classifier.id).map fun b =>
    { classifier := b, isForeign := a.isForeign || family r b != root }
  let suppliers := ((r.owned a.classifier.id).dependencies.filter (·.isImport)).filterMap fun d =>
    (r.classifier? d.supplier).filter fun s => family r s == root
  bases ++ suppliers.map fun s => { classifier := s, isForeign := a.isForeign }

/-- The classifiers whose features a classifier has, each once, depth first. -/
def ancestry (r : Registry) (c : Classifier) : List Ancestor :=
  preorder (·.classifier.id) (Ancestor.next r (family r c)) (r.classifiers.length + 1) []
    [{ classifier := c, isForeign := false }]

/-- A declared feature: data or behaviour. -/
inductive Declared where
  | data (f : Feature)
  | operation (o : Operation)
deriving DecidableEq, Repr

/-- The common part of a declared feature. -/
def Declared.identity : Declared → Identity
  | .data f => f.identity
  | .operation o => o.toIdentity

/-- The feature holds data. -/
def Declared.isData : Declared → Bool
  | .data _ => true
  | .operation _ => false

/-- A declared feature with the ancestor that declares it. -/
structure Declaration where
  owner : Ancestor
  declared : Declared
deriving DecidableEq, Repr

/-- The declarations of one ancestor: attributes, ends, operations. -/
def Ancestor.declarations (r : Registry) (a : Ancestor) : List Declaration :=
  let owned := r.owned a.classifier.id
  (owned.attributes.map (fun x => Declared.data (.attribute x)) ++
    owned.ends.map (fun x => Declared.data (.associationEnd x)) ++
    owned.operations.map Declared.operation).map fun d => { owner := a, declared := d }

/-- All declarations that count for a classifier. -/
def declarations (r : Registry) (c : Classifier) : List Declaration :=
  (ancestry r c).flatMap (·.declarations r)

/-- Marks the declarations that are the first of their name among those of their sort. -/
def firstWins : List (Bool × String) → List Declaration → List (Declaration × Bool)
  | _, [] => []
  | seen, d :: rest =>
    let name := (d.declared.isData, d.declared.identity.name)
    if seen.contains name then (d, false) :: firstWins seen rest
    else (d, true) :: firstWins (name :: seen) rest

/-- A data member of a flattened classifier. -/
structure Member where
  feature : Feature
  /-- The classifier that declares the feature. -/
  owner : Classifier
  /-- Inherited from another family: declared, but without accessors. -/
  isForeign : Bool
  key : String
  storage : Storage
  category : Category
deriving DecidableEq, Repr

namespace Member

/-- The name of the feature. -/
def name (m : Member) : String := m.feature.name

/-- The name of the member in the generated code. -/
def ident (m : Member) : String := Code.ident m.name

/-- Values cannot be written. -/
def isDerived (m : Member) : Bool := m.feature.typed.isDerived

/-- Who claims the key of the member. -/
def claimOwner (m : Member) : String := m.owner.name ++ "." ++ m.name

/-- The report on a type that does not resolve. -/
def notes (m : Member) : List Diagnostic :=
  if m.feature.typed.type ≠ "" ∧ m.storage.classifier = none then [{
    code := .unresolvedReference, element := m.feature.id
    message := "type of " ++ quote m.name ++ " falls back to " ++ quote m.storage.element }]
  else []

end Member

/-- What flattening makes of one declaration. -/
inductive Flattened where
  | member (m : Member)
  | operation (o : Operation)
  /-- Hidden by an earlier declaration of the name. -/
  | hidden (d : Diagnostic)
deriving DecidableEq, Repr

/-- The member of a feature under an id prefix. -/
def memberOf (r : Registry) (stem : String) (owner : Ancestor) (f : Feature) : Member :=
  { feature := f, owner := owner.classifier, isForeign := owner.isForeign
    key := keyOf stem f.name, storage := storageOf r f, category := categoryOf r f }

/-- The report on a hidden declaration. -/
def Declaration.hiddenNote (d : Declaration) : Diagnostic :=
  let noun := if d.declared.isData then "feature " else "operation "
  { code := .shadowedFeature, element := d.declared.identity.id
    message := noun ++ quote d.declared.identity.name ++ " of " ++ quote d.owner.classifier.name ++
      " is hidden by an earlier declaration" }

/-- The members and operations of a classifier under an id prefix, in the order they are met. -/
def flatten (r : Registry) (c : Classifier) (stem : String) : List Flattened :=
  (firstWins [] (declarations r c)).map fun (d, kept) =>
    if kept then
      match d.declared with
      | .data f => .member (memberOf r stem d.owner f)
      | .operation o => .operation o
    else .hidden d.hiddenNote

/-- The flattened features by sort. -/
structure Features where
  attributes : List Member := []
  ends : List Member := []
  operations : List Operation := []
deriving DecidableEq, Repr

/-- Attributes followed by ends. -/
def Features.data (f : Features) : List Member := f.attributes ++ f.ends

/-- The members in the order they are met. -/
def membersOf (fs : List Flattened) : List Member :=
  fs.filterMap fun
    | .member m => some m
    | _ => none

/-- Sorts flattened features. -/
def Features.ofFlattened (fs : List Flattened) : Features :=
  { attributes := (membersOf fs).filter fun m => !m.feature.isEnd
    ends := (membersOf fs).filter fun m => m.feature.isEnd
    operations := fs.filterMap fun
      | .operation o => some o
      | _ => none }

/-- The claims of flattened features: the keys of the members with their owners. -/
def claimsOf (fs : List Flattened) : List (String × String) :=
  (membersOf fs).map fun m => (m.key, m.claimOwner)

/-- The reports on flattened features, in order. -/
def notesOf (fs : List Flattened) : List Diagnostic :=
  fs.flatMap fun
    | .member m => m.notes
    | .hidden d => [d]
    | .operation _ => []

/-- The flattened features in front of the member with a given number, counted from zero. -/
def beforeMember : Nat → List Flattened → List Flattened
  | _, [] => []
  | 0, .member _ :: _ => []
  | n + 1, .member m :: rest => .member m :: beforeMember n rest
  | n, f :: rest => f :: beforeMember n rest

/-- Drops the reports that were made before. -/
def distinctNotes (ds : List Diagnostic) : List Diagnostic := ds.eraseDups

/-- The prefix of the keys of top-level features. -/
def defaultStem : String := "ATTR"

/-- What collecting the features of a classifier gives. -/
structure Collected where
  features : Option Features
  diagnostics : List Diagnostic
  collision : Option Collision

/-- The features of a classifier on their own, claimed in a table of their own. -/
def collect (r : Registry) (c : Classifier) : Collected :=
  let fs := flatten r c defaultStem
  match (({} : IdTable).withScope c.id).claimAll c.id (claimsOf fs) with
  | (_, _, none) =>
    { features := some (.ofFlattened fs), diagnostics := distinctNotes (notesOf fs)
      collision := none }
  | (_, n, some collision) =>
    { features := none, diagnostics := distinctNotes (notesOf (beforeMember n fs))
      collision := some collision }

end ObjectLowering.Lowering
