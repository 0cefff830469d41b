/-
  Reading typed fields out of data values.

  A reader takes the value that a field has so far and gives the new one, or
  nothing if the data have the wrong type.  `null` leaves a field as it was.
  Field names are compared up to case, and fields without a reader are passed
  over.
-/
import ObjectLowering.Data.Entries
import ObjectLowering.Data.Value
import ObjectLowering.Text.Casing
import ObjectLowering.Text.Numeral

namespace ObjectLowering.Data.Strict

/-- Reads one field into a record. -/
abbrev Reader (α : Type) := α → Value → Option α

/-- The range of numbers: words of 64 bits with a sign. -/
def isWord (n : Int) : Bool := -(Text.signedLimit : Int) ≤ n && n < Text.signedLimit

/-- An integer; it may be written as a negative zero. -/
def int : Reader Int := fun old v =>
  match v with
  | .null => some old
  | .int n => if isWord n then some n else none
  | .real (.finite { isNegative := true, digits := 0, exponent := 0 }) => some 0
  | _ => none

/-- A text. -/
def text : Reader String := fun old v =>
  match v with
  | .null => some old
  | .text s => some s
  | _ => none

/-- A list of texts; a `null` item keeps the one at its place, or is empty. -/
def texts : Reader (List String) := fun old v =>
  match v with
  | .null => some []
  | .list items => (items.zipIdx).mapM fun (x, i) => text (old.getD i "") x
  | _ => none

/-- Entries by name, entered into those read before; every entry starts from `zero`. -/
def entries {α : Type} (item : Reader α) (zero : α) : Reader (Option (List (String × α))) :=
  fun old v =>
    match v with
    | .null => some none
    | .record fields =>
      (fields.foldlM (fun es (name, x) => (item zero x).map fun y => putEntry name y es)
        (old.getD [])).map some
    | _ => none

/-- A record, its fields in the order they are given. -/
def record {α : Type} (fields : List (String × Reader α)) : Reader α := fun old v =>
  match v with
  | .null => some old
  | .record given =>
    given.foldlM (fun r (name, x) =>
      match fields.find? fun f => Text.foldEq f.1 name with
      | some f => f.2 r x
      | none => some r) old
  | _ => none

end ObjectLowering.Data.Strict
