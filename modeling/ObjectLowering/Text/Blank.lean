/-
  White space and trimming: the Unicode property White_Space.

  * `trim` removes the blanks at both ends of a text and keeps those inside.
  * `isBlankText` holds of the texts that `trim` makes empty.
-/
import ObjectLowering.Text.Stretch

namespace ObjectLowering.Text

/-- The code points with the property White_Space. -/
def blankTable : List Stretch := [
  ⟨0x9, 0xd, 1⟩, ⟨0x20, 0x20, 1⟩, ⟨0x85, 0x85, 1⟩, ⟨0xa0, 0xa0, 1⟩, ⟨0x1680, 0x1680, 1⟩,
  ⟨0x2000, 0x200a, 1⟩, ⟨0x2028, 0x2029, 1⟩, ⟨0x202f, 0x202f, 1⟩, ⟨0x205f, 0x205f, 1⟩,
  ⟨0x3000, 0x3000, 1⟩]

/-- A white-space character. -/
def isBlank (c : Char) : Bool := inTable blankTable c.toNat

/-- Removes what satisfies `p` at the end of a list. -/
def dropWhileEnd (p : Char → Bool) (cs : List Char) : List Char :=
  (cs.reverse.dropWhile p).reverse

/-- Removes what satisfies `p` at both ends of a list. -/
def trimList (p : Char → Bool) (cs : List Char) : List Char :=
  dropWhileEnd p (cs.dropWhile p)

/-- The text without the blanks at its two ends. -/
def trim (s : String) : String := String.ofList (trimList isBlank s.toList)

/-- A text of blanks only. -/
def isBlankText (s : String) : Bool := s.toList.all isBlank

/-- The text without the characters satisfying `p` at its end. -/
def trimEnd (p : Char → Bool) (s : String) : String := String.ofList (dropWhileEnd p s.toList)

end ObjectLowering.Text
