/-
  Lists that are read more than once.

  When a list is given again, its items are read into those that it had, each
  into the one at its place.  A list that gets shorter keeps what lay behind
  its new end, and shows it again when it gets longer.  Only an empty list, or
  `null`, clears it.
-/
import ObjectLowering.Data.Strict

namespace ObjectLowering.Data

/-- The items of a list, and what lies behind its end. -/
structure Slots (α : Type) where
  items : List α := []
  behind : List α := []

namespace Slots

/-- All places of a list. -/
def places {α : Type} (s : Slots α) : List α := s.items ++ s.behind

/-- Reads items into places; places that are missing start from `zero`. -/
def fill {α : Type} (item : Strict.Reader α) (zero : α) : List α → List Value → Option (Slots α)
  | places, [] => some ⟨[], places⟩
  | places, v :: rest => do
    let x ← item (places.headD zero) v
    let s ← fill item zero places.tail rest
    return { s with items := x :: s.items }

/-- A list of items. -/
def reader {α : Type} (item : Strict.Reader α) (zero : α) : Strict.Reader (Slots α) := fun old v =>
  match v with
  | .null | .list [] => some {}
  | .list vs => fill item zero old.places vs
  | _ => none

end Slots

end ObjectLowering.Data
