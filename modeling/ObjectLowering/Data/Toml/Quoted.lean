/-
  Quoted texts of TOML: on one line or over several, with escapes between
  double quotes and without them between single ones.

  Each reader starts behind the opening quotes and returns the text with what
  follows the closing ones.
-/
import ObjectLowering.Text.Numeral

namespace ObjectLowering.Data.Toml

/-- A blank inside a line. -/
def isBlank (c : Char) : Bool := c == ' ' || c == '\t'

/-- What follows blanks inside a line. -/
def skipBlanks (cs : List Char) : List Char := cs.dropWhile isBlank

/-- A part of a line end. -/
def isLineEnd (c : Char) : Bool := c == '\n' || c == '\r'

/-- What follows a line end, if there is one. -/
def behindLineEnd? : List Char → Option (List Char)
  | '\n' :: rest | '\r' :: '\n' :: rest => some rest
  | _ => none

/-! ## On one line -/

/-- The character of an escape, and what follows. -/
def readEscape : List Char → Option (Char × List Char)
  | 'b' :: rest => some ('\x08', rest)
  | 't' :: rest => some ('\t', rest)
  | 'n' :: rest => some ('\n', rest)
  | 'f' :: rest => some ('\x0c', rest)
  | 'r' :: rest => some ('\r', rest)
  | 'e' :: rest => some ('\x1b', rest)
  | '"' :: rest => some ('"', rest)
  | '\\' :: rest => some ('\\', rest)
  | 'u' :: rest => if rest.length < 4 then none
      else (Text.charOfHex? (rest.take 4)).map fun c => (c, rest.drop 4)
  | 'U' :: rest => if rest.length < 8 then none
      else (Text.charOfHex? (rest.take 8)).map fun c => (c, rest.drop 8)
  | _ => none

/-- Reads a text between double quotes; `read` is what was read before, last first. -/
def readBasic : Nat → List Char → List Char → Option (String × List Char)
  | 0, _, _ => none
  | _ + 1, _, [] => none
  | fuel + 1, read, c :: rest =>
    if c == '"' then some (String.ofList read.reverse, rest)
    else if isLineEnd c then none
    else if c == '\\' then
      match readEscape rest with
      | some (c, rest) => readBasic fuel (c :: read) rest
      | none => none
    else readBasic fuel (c :: read) rest

/-- Reads a text between single quotes. -/
def readLiteral (cs : List Char) : Option (String × List Char) :=
  let text := cs.takeWhile fun c => c != '\'' && !isLineEnd c
  match cs.drop text.length with
  | '\'' :: rest => some (String.ofList text, rest)
  | _ => none

/-! ## Over several lines -/

/-- The text ends at a run of three quotes or more; up to two quotes in front of the last three
    belong to it. Gives the quotes of the text and what follows. -/
def closing? (quote : Char) (cs : List Char) : Option (List Char × List Char) :=
  let run := cs.takeWhile (· == quote)
  if 3 ≤ run.length ∧ run.length ≤ 5 then some (run.drop 3, cs.drop run.length) else none

/-- Three quotes follow. -/
def closes (quote : Char) (cs : List Char) : Bool := cs.take 3 == [quote, quote, quote]

/-- What follows a backslash that ends its line: the next character that is no blank. -/
def behindFold? (cs : List Char) : Option (List Char) :=
  (behindLineEnd? (skipBlanks cs)).map (·.dropWhile fun c => isBlank c || isLineEnd c)

/-- Reads a text between three double quotes. -/
def readLong : Nat → List Char → List Char → Option (String × List Char)
  | 0, _, _ => none
  | _ + 1, _, [] => none
  | fuel + 1, read, c :: rest =>
    if closes '"' (c :: rest) then
      (closing? '"' (c :: rest)).map fun (quotes, rest) =>
        (String.ofList (read.reverse ++ quotes), rest)
    else if c != '\\' then readLong fuel (c :: read) rest
    else match behindFold? rest with
      | some rest => readLong fuel read rest
      | none =>
        match readEscape rest with
        | some (c, rest) => readLong fuel (c :: read) rest
        | none => none

/-- Reads a text between three single quotes. -/
def readLongLiteral (read : List Char) : List Char → Option (String × List Char)
  | [] => none
  | c :: rest =>
    if closes '\'' (c :: rest) then
      (closing? '\'' (c :: rest)).map fun (quotes, rest) =>
        (String.ofList (read.reverse ++ quotes), rest)
    else readLongLiteral (c :: read) rest

/-! ## At the opening quotes -/

/-- A line end right behind three opening quotes is no part of the text. -/
def skipFirstBreak (cs : List Char) : List Char := (behindLineEnd? cs).getD cs

/-- Reads a quoted text on one line, if one starts here. -/
def readShortQuoted? : List Char → Option (String × List Char)
  | '"' :: rest => readBasic (rest.length + 1) [] rest
  | '\'' :: rest => readLiteral rest
  | _ => none

/-- Reads a quoted text, if one starts here. -/
def readQuoted? : List Char → Option (String × List Char)
  | '"' :: '"' :: '"' :: rest => readLong (rest.length + 1) [] (skipFirstBreak rest)
  | '\'' :: '\'' :: '\'' :: rest => readLongLiteral [] (skipFirstBreak rest)
  | cs => readShortQuoted? cs

end ObjectLowering.Data.Toml
