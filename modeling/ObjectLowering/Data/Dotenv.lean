/-
  Reading lists of variables, one assignment a line: `NAME=value` or
  `NAME: value`, perhaps behind `export`.

  A value may stand between quotes, which may then span lines.  Between
  double quotes backslashes escape.  Outside of single quotes `$NAME` and
  `${NAME}` stand for variables: those of the environment, and those that
  were assigned before.
-/
import ObjectLowering.Data.Value
import ObjectLowering.Text.Blank

namespace ObjectLowering.Data.Dotenv

/-! ## Lines -/

/-- The lines of a text; `line` is what was read of the current one, last first. -/
def linesFrom (line : List Char) : List Char → List (List Char)
  | [] => if line.isEmpty then [] else [line.reverse]
  | '\r' :: '\n' :: rest => line.reverse :: linesFrom [] rest
  | c :: rest =>
    if c == '\r' || c == '\n' then line.reverse :: linesFrom [] rest
    else linesFrom (c :: line) rest

/-- A text without the blanks around it. -/
def trimmed (cs : List Char) : List Char := Text.trimList Text.isBlank cs

/-- The place of the last occurrence of a character. -/
def lastIndex? (c : Char) (cs : List Char) : Option Nat :=
  (cs.reverse.idxOf? c).map (cs.length - 1 - ·)

/-- What follows the first `=`, or the first `:` if there is no `=`; something has to come before
    it. -/
def assigned? (line : List Char) : Option (List Char) :=
  let mark := if line.contains '=' then '=' else ':'
  match line.span (· != mark) with
  | (_ :: _, _ :: d :: rest) => some (d :: rest)
  | _ => none

/-- The quote that a line leaves open: the one its value starts with, unless there is another
    behind it that no backslash precedes. -/
def openQuote? (line : List Char) : Option Char :=
  match (assigned? line).map trimmed with
  | some (q :: rest) =>
    let closed := match lastIndex? q (trimmed rest) with
      | some i => (q :: rest)[i]? != some '\\'
      | none => false
    if (q == '"' || q == '\'') && !closed then some q else none
  | _ => none

/-- A further line closes a quote: the last one on it has no backslash in front. -/
def closesQuote (q : Char) (text : List Char) : Bool :=
  match lastIndex? q text with
  | some (i + 1) => text[i]? != some '\\'
  | some 0 => true
  | none => false

/-- Joins the lines of each assignment; `pending` is an assignment whose quote is open. Blank lines
    and comments are passed over. -/
def assignments? (pending : Option (Char × List Char)) :
    List (List Char) → Option (List (List Char))
  | [] => if pending.isSome then none else some []
  | line :: rest =>
    match pending with
    | some (q, text) =>
      let text := text ++ '\n' :: line
      if closesQuote q line then (assignments? none rest).map (text :: ·)
      else assignments? (some (q, text)) rest
    | none =>
      let line := trimmed line
      if line.isEmpty || line.head? == some '#' then assignments? none rest
      else match openQuote? line with
        | some q => assignments? (some (q, line)) rest
        | none => (assignments? none rest).map (line :: ·)

/-! ## Assignments -/

/-- A blank or line end. -/
def isSpace (c : Char) : Bool := [' ', '\t', '\n', '\x0c', '\r'].contains c

/-- A character of a name. -/
def isNameChar (c : Char) : Bool := c.isAlphanum || c == '_' || c == '.'

/-- Nothing but blanks and a comment on one line is left. -/
def isTail (cs : List Char) : Bool :=
  match cs.dropWhile isSpace with
  | [] => true
  | c :: rest => c == '#' && !rest.contains '\n'

/-- The longest front that ends with a quote and has nothing but a tail behind it, given the number
    of characters to try. -/
def quotedFront? (q : Char) (cs : List Char) : Nat → Option (List Char)
  | 0 => none
  | n + 1 =>
    if 0 < n && cs[n]? == some q && isTail (cs.drop (n + 1)) then some (cs.take (n + 1))
    else quotedFront? q cs n

/-- The value at the front of a text with nothing but a tail behind it: between quotes, up to a
    comment, or empty. -/
def front? (cs : List Char) : Option (List Char) :=
  let quoted := match cs.head? with
    | some q => if q == '"' || q == '\'' then quotedFront? q cs cs.length else none
    | none => none
  let plain := cs.takeWhile fun c => c != '#' && c != '\n'
  let bare := if !plain.isEmpty && isTail (cs.drop plain.length) then some plain else none
  quoted <|> bare <|> (if isTail cs then some [] else none)

/-- The value behind the sign of an assignment. Behind `=` all blanks are passed, behind `:` as few
    as possible but at least one. -/
def value? : List Char → Option (List Char)
  | ':' :: rest =>
    let blanks := (rest.takeWhile isSpace).length
    (List.range blanks).findSome? fun n => front? (rest.drop (n + 1))
  | cs =>
    match cs.dropWhile isSpace with
    | '=' :: rest => front? (rest.dropWhile isSpace)
    | _ => none

/-- The name and the value of an assignment. -/
def named? (cs : List Char) : Option (List Char × List Char) :=
  let name := cs.takeWhile isNameChar
  if name.isEmpty then none else (value? (cs.drop name.length)).map fun v => (name, trimmed v)

/-- The name and the value of an assignment, perhaps behind `export`. -/
def assignment? (line : List Char) : Option (List Char × List Char) :=
  let word := "export".toList
  let rest := line.drop word.length
  let exported := if word.isPrefixOf line && (rest.head?.map isSpace).getD false
    then named? (rest.dropWhile isSpace) else none
  exported <|> named? line

/-! ## Values -/

/-- Undoes the escape of a line end. -/
def lineEnds : List Char → List Char
  | '\\' :: 'n' :: rest => '\n' :: lineEnds rest
  | c :: rest => c :: lineEnds rest
  | [] => []

/-- Undoes the escape of a carriage return. -/
def carriageReturns : List Char → List Char
  | '\\' :: 'r' :: rest => '\r' :: carriageReturns rest
  | c :: rest => c :: carriageReturns rest
  | [] => []

/-- Drops the backslash in front of any character but `$`. -/
def unescaped : List Char → List Char
  | '\\' :: c :: rest =>
    if c == '$' then '\\' :: unescaped (c :: rest) else c :: unescaped rest
  | c :: rest => c :: unescaped rest
  | [] => []

/-- A character of the name of a variable. -/
def isVariableChar (c : Char) : Bool := c.isUpper || c.isDigit || c == '_'

/-- The name of a variable behind a `$`, and what follows; braces around it may be missing. -/
def placeholder? (cs : List Char) : Option (String × List Char) :=
  let cs := if cs.head? == some '{' then cs.drop 1 else cs
  let name := cs.takeWhile isVariableChar
  let rest := cs.drop name.length
  if name.isEmpty then none
  else some (String.ofList name, if rest.head? == some '}' then rest.drop 1 else rest)

/-- Puts variables in; a `$` behind a backslash is only that. -/
def expand (lookup : String → String) : Nat → List Char → List Char
  | 0, _ => []
  | _ + 1, [] => []
  | fuel + 1, '\\' :: '$' :: rest =>
    -- the name behind an escaped `$` is passed over as a whole
    let opening := if rest.head? == some '{' then ['{'] else []
    '$' :: opening ++ expand lookup fuel (rest.drop opening.length)
  | fuel + 1, '$' :: rest =>
    match placeholder? rest with
    | some (name, rest) => (lookup name).toList ++ expand lookup fuel rest
    | none => '$' :: expand lookup fuel rest
  | fuel + 1, c :: rest => c :: expand lookup fuel rest

/-- The value is between two of a quote. -/
def isBetween (q : Char) (cs : List Char) : Bool :=
  2 ≤ cs.length && cs.head? == some q && cs.getLast? == some q

/-- What a value says. -/
def meaning (lookup : String → String) (cs : List Char) : String :=
  let inner := (cs.drop 1).dropLast
  let expanded (cs : List Char) := expand lookup (cs.length + 1) cs
  String.ofList <|
    if isBetween '\'' cs then inner
    else if isBetween '"' cs then expanded (unescaped (carriageReturns (lineEnds inner)))
    else expanded cs

/-- The variables of a text. Variables of the environment go before those of the text. -/
def read (environment : List (String × String)) (s : String) : Option Value := do
  let cs := s.toList
  let cs := if cs.head? == some '\uFEFF' then cs.drop 1 else cs
  let lines ← assignments? none (linesFrom [] cs)
  let fields ← lines.foldlM (fun (fields : List (String × Value)) line =>
    (assignment? line).map fun (name, v) =>
      let lookup (x : String) :=
        (environment.lookup x).getD ((Value.record fields).get x).asText
      fields ++ [(String.ofList name, .text (meaning lookup v))]) []
  return .record fields

end ObjectLowering.Data.Dotenv
