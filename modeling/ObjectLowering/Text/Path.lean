/-
  Slash-separated paths.

  `clean` gives the shortest path that names the same place by its text
  alone: no empty and no `.` segments, a `..` only at the front of a relative
  path.  The empty path is cleaned to `.`.
-/
import ObjectLowering.Text.Parts

namespace ObjectLowering.Text.Path

/-- The path starts at the root. -/
def isRooted (path : String) : Bool := path.toList.head? == some '/'

/-- Adds a segment to cleaned segments, given last first. -/
def addSegment (rooted : Bool) (cleaned : List String) (segment : String) : List String :=
  if segment = "" ∨ segment = "." then cleaned
  else if segment = ".." then
    match cleaned with
    | [] => if rooted then [] else [".."]
    | last :: rest => if last = ".." then ".." :: cleaned else rest
  else segment :: cleaned

/-- The segments of the cleaned path. -/
def segments (path : String) : List String :=
  ((splitOn '/' path).foldl (addSegment (isRooted path)) []).reverse

/-- The path of segments. -/
def ofSegments (rooted : Bool) (segments : List String) : String :=
  if segments.isEmpty then (if rooted then "/" else ".")
  else (if rooted then "/" else "") ++ String.intercalate "/" segments

/-- The shortest path to the same place. -/
def clean (path : String) : String := ofSegments (isRooted path) (segments path)

/-- The cleaned path of two parts; empty parts do not count. -/
def join (a b : String) : String :=
  if a = "" ∧ b = "" then ""
  else if a = "" then clean b
  else if b = "" then clean a
  else clean (a ++ "/" ++ b)

/-- The cleaned path of the enclosing directory. -/
def directory (path : String) : String :=
  match cutLast? ['/'] path.toList with
  | some (before, _) => clean (String.ofList (before ++ ['/']))
  | none => "."

/-- The last segment of a path as it is written. -/
def lastSegment (path : String) : String :=
  match cutLast? ['/'] path.toList with
  | some (_, rest) => String.ofList rest
  | none => path

/-- The ending of the last segment from its last dot on, empty without a dot. -/
def extension (path : String) : String :=
  match cutLast? ['.'] (lastSegment path).toList with
  | some (_, rest) => "." ++ String.ofList rest
  | none => ""

end ObjectLowering.Text.Path
