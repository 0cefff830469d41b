/-
  Families of classifiers, and the walk over bases.

  * `preorder` visits what is reachable over a list of edges, each item once,
    depth first and in the order of the edges.
  * `family` sorts classifiers into values, simulation objects and structs.
    The mark of simulation objects is inherited.
-/
import ObjectLowering.Model.Registry

namespace ObjectLowering.Lowering

open Model

/-- Visits the items of a worklist and what they lead to, depth first; an item whose key was seen
    is passed over. At most `fuel` items are visited. -/
def preorder {α : Type} (key : α → String) (next : α → List α) :
    Nat → List String → List α → List α
  | 0, _, _ => []
  | fuel + 1, seen, todo =>
    match todo.dropWhile fun x => seen.contains (key x) with
    | [] => []
    | x :: rest => x :: preorder key next fuel (key x :: seen) (next x ++ rest)

/-- A classifier and its bases of every degree, depth first. No classifier is visited twice, so the
    number of classifiers bounds the walk. -/
def lineage (r : Registry) (c : Classifier) : List Classifier :=
  preorder (·.id) (fun x => r.bases x.id) (r.classifiers.length + 1) [] [c]

/-- The stereotype of classes that become addressable simulation objects. -/
def simObjectStereotype : String := "SimObject"

/-- The classifier itself carries the stereotype, in any case. -/
def isMarked (c : Classifier) : Bool := Text.foldEq c.stereotype simObjectStereotype

/-- How a classifier is represented. -/
inductive Family where
  /-- A plain struct, embedded by value. -/
  | struct
  /-- An addressable simulation object. -/
  | simObject
  /-- An enumeration or a primitive type. -/
  | value
deriving DecidableEq, Repr

/-- The name of a family. -/
def Family.name : Family → String
  | struct => "struct"
  | simObject => "simobject"
  | value => "value"

/-- The family of a classifier. -/
def family (r : Registry) (c : Classifier) : Family :=
  match c.kind with
  | .enumeration | .primitiveType => .value
  | .dataType => .struct
  | .objectClass => if (lineage r c).any isMarked then .simObject else .struct

end ObjectLowering.Lowering
