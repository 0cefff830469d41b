/-
  The statements of a script.

  * `scanLines` are the lines of a text, up to the first that is too long.
  * Blank lines and comment lines do not count.
  * A statement ends with a line that ends in `;`, or with the script.
-/
import ObjectLowering.Text.Parts

namespace ObjectLowering.Schema

open Text

/-- A line of this many bytes or more ends the scan. -/
def lineLimit : Nat := 65536

/-- The line without a carriage return at its end. -/
def dropReturn (line : String) : String :=
  if endsWith line "\r" then String.ofList line.toList.dropLast else line

/-- The lines of a text without their ends; a line feed at the end starts no further line. -/
def rawLines (s : String) : List String :=
  match (splitOn '\n' s).reverse with
  | "" :: rest => rest.reverse
  | lines => lines.reverse

/-- The lines of a text up to the first that is too long. -/
def scanLines (s : String) : List String :=
  ((rawLines s).takeWhile fun l => l.utf8ByteSize < lineLimit).map dropReturn

/-- A line that belongs to a statement: neither blank nor a comment. -/
def isCodeLine (line : String) : Bool := !isBlankText line && !startsWith (trim line) "--"

/-- The line ends a statement. -/
def endsStatement (line : String) : Bool := endsWith (trim line) ";"

/-- Groups lines into statements; `begun` are the lines of the statement begun, last first. -/
def groupLines (begun : List String) : List String → List (List String)
  | [] => if begun.isEmpty then [] else [begun.reverse]
  | l :: rest =>
    if endsStatement l then (l :: begun).reverse :: groupLines [] rest
    else groupLines (l :: begun) rest

/-- The text of a statement. -/
def statementText (lines : List String) : String :=
  trim (String.join (lines.map (· ++ "\n")))

/-- The statements of a script in order. -/
def statements (s : String) : List String :=
  (groupLines [] ((scanLines s).filter isCodeLine)).map statementText

end ObjectLowering.Schema
