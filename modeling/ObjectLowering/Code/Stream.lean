/-
  Indented source text, as a sequence of edits.

  Generators produce a list of `Edit`s; `Stream` is the text that a list of
  edits has written so far, with the current indentation.  Braces appear only
  through `Edit.opening` and `Edit.closing`, or as part of a written line.
-/

namespace ObjectLowering.Code

/-- One step of writing source text. -/
inductive Edit where
  /-- A line at the current indentation; an empty text gives a blank line. -/
  | line (text : String)
  /-- A line ending in an opening brace, one level deeper afterwards. -/
  | opening (head : String)
  /-- One level back, then a closing brace and a tail. -/
  | closing (tail : String)
  | indent
  | dedent
deriving DecidableEq, Repr

/-- The text written so far and the indentation level. -/
structure Stream where
  depth : Nat := 0
  lines : Array String := #[]

/-- The number of spaces per level. -/
def indentWidth : Nat := 4

/-- A text behind the spaces of an indentation level. -/
def indented (depth : Nat) (text : String) : String :=
  String.ofList (List.replicate (depth * indentWidth) ' ') ++ text

/-- The text of an opening line. -/
def openingText (head : String) : String := if head = "" then "\x7b" else head ++ " \x7b"

namespace Stream

/-- Writes one line. -/
def line (s : Stream) (text : String) : Stream :=
  { s with lines := s.lines.push (if text = "" then "" else indented s.depth text) }

/-- The stream after one edit. -/
def apply (s : Stream) : Edit → Stream
  | .line text => s.line text
  | .opening head => { s.line (openingText head) with depth := s.depth + 1 }
  | .closing tail => { s with depth := s.depth - 1 }.line ("\x7d" ++ tail)
  | .indent => { s with depth := s.depth + 1 }
  | .dedent => { s with depth := s.depth - 1 }

/-- Nothing was written. -/
def isEmpty (s : Stream) : Bool := s.lines.isEmpty

/-- The written text, every line ended by a line feed. -/
def text (s : Stream) : String := String.join (s.lines.toList.map (· ++ "\n"))

end Stream

/-- The text that a list of edits writes. -/
def render (edits : List Edit) : String := (edits.foldl Stream.apply {}).text

end ObjectLowering.Code
