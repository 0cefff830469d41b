/-
  Addressable locations of a simulation object.

  A location is a member that is no nested struct, with the members that
  enclose it.  `survey` walks all members of a class and of the structs
  nested in it by value, and records the locations in order, the id claims
  of nested members and what cannot be addressed:

  * a collection inside a keyed member, since there is only one index;
  * a struct inside itself.
-/
import ObjectLowering.Lowering.Features

namespace ObjectLowering.Lowering

open Model Code Text

namespace Member

/-- A struct embedded by value, whose own features are addressed through the object. -/
def isNested (m : Member) : Bool :=
  m.category == .struct && !m.storage.isShared && m.storage.shape != .optional &&
    m.storage.classifier.isSome

/-- A collection. -/
def isKeyed (m : Member) : Bool := m.storage.shape == .keyed

end Member

/-- A member and those that enclose it, outermost first. -/
structure Location where
  via : List Member
  member : Member
deriving DecidableEq, Repr

namespace Location

/-- The key under which the location is addressed. -/
def key (l : Location) : String := l.member.key

/-- The names on the way from the object to the location. -/
def names (l : Location) : List String := (l.via ++ [l.member]).map (·.name)

/-- The expression that selects an element of a keyed member. -/
def indexOf (s : Storage) : String := "index.As<" ++ s.keyType ++ ">()"

/-- The step through an enclosing member when reading. -/
def readStep (m : Member) : String :=
  if m.isKeyed then m.ident ++ ".at(" ++ indexOf m.storage ++ ")." else m.ident ++ "."

/-- The step through an enclosing member when writing. -/
def writeStep (m : Member) : String :=
  if m.isKeyed then m.ident ++ "[" ++ indexOf m.storage ++ "]." else m.ident ++ "."

/-- The access expression for reading. -/
def readBase (l : Location) : String := String.join (l.via.map readStep) ++ l.member.ident

/-- The access expression for writing. -/
def writeBase (l : Location) : String := String.join (l.via.map writeStep) ++ l.member.ident

end Location

/-- What walking the members of a class records. -/
structure Survey where
  locations : List Location := []
  notes : List Diagnostic := []
  claims : List (String × String) := []
  /-- The keys that were met. -/
  visited : List String := []
deriving DecidableEq, Repr

/-- The report on a collection inside a keyed member. -/
def nestedCollectionNote (m : Member) : Diagnostic :=
  { code := .nestedCollection, element := m.feature.id
    message := "collection " ++ quote m.key ++ " inside a keyed member is not addressable" }

/-- The report on a struct that encloses itself. -/
def recursiveStructNote (m : Member) (c : Classifier) : Diagnostic :=
  { code := .recursiveStruct, element := m.feature.id
    message := quote m.key ++ " embeds " ++ quote c.name ++ " recursively" }

/-- Walks members enclosed by `via`; `active` are the structs on the way and `root` is the class
    itself. -/
def surveyMembers (r : Registry) (root : String) :
    Nat → List Member → List String → List Member → Survey → Survey
  | 0, _, _, _, s => s
  | depth + 1, via, active, members, s => members.foldl (fun s m =>
      if m.isForeign || s.visited.contains m.key then s
      else
        let s := { s with visited := m.key :: s.visited }
        match m.storage.classifier with
        | some c =>
          if !m.isNested then { s with locations := s.locations ++ [⟨via, m⟩] }
          else if via.any (·.isKeyed) && m.isKeyed then
            { s with notes := s.notes ++ [nestedCollectionNote m] }
          else if active.contains c.id || c.id == root then
            { s with notes := s.notes ++ [recursiveStructNote m c] }
          else
            let fs := flatten r c m.key
            surveyMembers r root depth (via ++ [m]) (c.id :: active)
              (Features.ofFlattened fs).data
              { s with notes := s.notes ++ notesOf fs, claims := s.claims ++ claimsOf fs }
        | none => { s with locations := s.locations ++ [⟨via, m⟩] }) s

/-- Walks the members of a class. The structs on the way are pairwise different, so their number
    bounds the depth. -/
def survey (r : Registry) (root : Classifier) (features : Features) : Survey :=
  surveyMembers r root.id (r.classifiers.length + 1) [] [] features.data {}

end ObjectLowering.Lowering
