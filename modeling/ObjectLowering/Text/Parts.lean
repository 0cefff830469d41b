/-
  Parts of a text: cutting at separators and at occurrences.

  * `splitOn` cuts at every occurrence of a character, `parts` also trims and
    drops what is empty.
  * `cutFirst?` and `cutLast?` cut at one occurrence of a pattern.
-/
import ObjectLowering.Text.Blank

namespace ObjectLowering.Text

/-- The parts of a text between separators. -/
def splitOn (separator : Char) (s : String) : List String :=
  (s.toList.splitOn separator).map String.ofList

/-- The parts of a text between separators, trimmed, empty ones dropped. -/
def parts (separator : Char) (s : String) : List String :=
  ((splitOn separator s).map trim).filter (· != "")

/-- What follows a pattern at the front of a list. -/
def afterFront? : List Char → List Char → Option (List Char)
  | [], cs => some cs
  | p :: ps, c :: cs => if p = c then afterFront? ps cs else none
  | _ :: _, [] => none

/-- What stands before and behind the first occurrence of a pattern. -/
def cutFirst? (pattern : List Char) : List Char → Option (List Char × List Char)
  | [] => if pattern.isEmpty then some ([], []) else none
  | c :: cs =>
    match afterFront? pattern (c :: cs) with
    | some rest => some ([], rest)
    | none => (cutFirst? pattern cs).map fun (before, rest) => (c :: before, rest)

/-- What stands before and behind the last occurrence of a pattern. -/
def cutLast? (pattern : List Char) : List Char → Option (List Char × List Char)
  | [] => if pattern.isEmpty then some ([], []) else none
  | c :: cs =>
    match cutLast? pattern cs with
    | some (before, rest) => some (c :: before, rest)
    | none => (afterFront? pattern (c :: cs)).map fun rest => ([], rest)

/-- The text holds a pattern. -/
def holds (s pattern : String) : Bool := (cutFirst? pattern.toList s.toList).isSome

/-- The text starts with another. -/
def startsWith (s front : String) : Bool := (afterFront? front.toList s.toList).isSome

/-- The text ends with another. -/
def endsWith (s tail : String) : Bool :=
  (afterFront? tail.toList.reverse s.toList.reverse).isSome

/-- The text without another at its front; a text that does not start with it is kept. -/
def dropFront (s front : String) : String :=
  ((afterFront? front.toList s.toList).map String.ofList).getD s

/-- The parts of a list between the occurrences of a pattern; `fuel` bounds their number. -/
def splitAtList (pattern : List Char) : Nat → List Char → List (List Char)
  | 0, cs => [cs]
  | fuel + 1, cs =>
    match cutFirst? pattern cs with
    | some (before, rest) => before :: splitAtList pattern fuel rest
    | none => [cs]

/-- The parts of a text between the occurrences of a pattern that is not empty. -/
def splitAtText (pattern s : String) : List String :=
  (splitAtList pattern.toList s.length s.toList).map String.ofList

/-- The text with every occurrence of a character replaced. -/
def replaceChar (c : Char) (replacement s : String) : String :=
  String.ofList (s.toList.flatMap fun x => if x = c then replacement.toList else [x])

end ObjectLowering.Text
