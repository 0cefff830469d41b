/-
  References that remember what they resolved to.
-/
import ObjectLowering.Model.Registry

namespace ObjectLowering.Model

/-- The kinds of elements that a reference may ask for. -/
inductive ReferenceKind where
  | classifier
  | vertex
  | event
deriving DecidableEq, Repr

/-- The element is of the kind asked for. -/
def ReferenceKind.accepts : ReferenceKind → Element → Bool
  | .classifier, .classifier _ => true
  | .vertex, .state _ => true
  | .vertex, .pseudoState _ => true
  | .event, .event _ => true
  | _, _ => false

/-- An id with the kind it should have, and the element it once resolved to. -/
structure Reference where
  kind : ReferenceKind
  id : String
  found : Option Element := none

namespace Reference

/-- The reference names an element. -/
def isSet (ref : Reference) : Bool := ref.id != ""

/-- What a look-up in the registry gives. -/
def target (ref : Reference) (r : Registry) : Option Element :=
  if ref.id = "" then none else (r.lookup ref.id).filter ref.kind.accepts

/-- Resolves the reference: what it found before, else what a look-up gives, if there is a
    registry to look in. A success is remembered. -/
def resolve (ref : Reference) (r : Option Registry) : Option Element × Reference :=
  match ref.found with
  | some e => (some e, ref)
  | none =>
    let found := r.bind ref.target
    (found, { ref with found })

end Reference

end ObjectLowering.Model
