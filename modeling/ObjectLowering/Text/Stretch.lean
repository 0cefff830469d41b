/-
  Sorted tables of code points.

  A property of characters is a list of stretches: first member, last member
  and the distance between neighbours.  A character mapping is a list of
  stretches with the image of the first member.  Both lists are sorted, so a
  search stops at the first stretch that starts above the code point.
-/

namespace ObjectLowering.Text

/-- The numbers `first, first + step, …` up to `last`. -/
structure Stretch where
  first : Nat
  last : Nat
  step : Nat

/-- `n` is one of the numbers of the stretch. -/
def Stretch.covers (s : Stretch) (n : Nat) : Bool :=
  s.first ≤ n && n ≤ s.last && (n - s.first) % s.step == 0

/-- Membership in a sorted table. -/
def inTable : List Stretch → Nat → Bool
  | [], _ => false
  | s :: rest, n => if n < s.first then false else s.covers n || inTable rest n

/-- A stretch whose members keep their distances when mapped to `image` and up. -/
structure Shift where
  first : Nat
  last : Nat
  step : Nat
  image : Nat

/-- The image of `n` under a sorted table; a number in no stretch is its own image. -/
def shifted : List Shift → Nat → Nat
  | [], n => n
  | s :: rest, n =>
    if n < s.first then n
    else if n ≤ s.last && (n - s.first) % s.step == 0 then s.image + (n - s.first)
    else shifted rest n

end ObjectLowering.Text
