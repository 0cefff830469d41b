/-
  Reading TOML: tables, arrays of tables, dotted keys, and all kinds of
  values.

  A document is read line by line into a tree of records.  The assignments
  under a header go to the table that the header names, or to the last item
  of an array of tables.  An `Outline` keeps which names are used.
-/
import ObjectLowering.Data.Toml.Outline
import ObjectLowering.Data.Toml.Quoted
import ObjectLowering.Data.Toml.Scalar

namespace ObjectLowering.Data.Toml

/-! ## Blanks and comments -/

/-- What follows a comment, up to the line end. -/
def skipComment (cs : List Char) : List Char :=
  if cs.head? == some '#' then cs.dropWhile fun c => !isLineEnd c else cs

/-- What follows blanks, comments and line ends; `fuel` bounds the number of lines. -/
def skipLines : Nat → List Char → List Char
  | 0, cs => cs
  | fuel + 1, cs =>
    let rest := skipComment (skipBlanks cs)
    match behindLineEnd? rest with
    | some rest => skipLines fuel rest
    | none => rest

/-- What follows the end of a line with nothing but a comment left. -/
def endLine? (cs : List Char) : Option (List Char) :=
  match skipComment (skipBlanks cs) with
  | [] => some []
  | rest => behindLineEnd? rest

/-! ## Keys -/

/-- A character of a bare key. -/
def isKeyChar (c : Char) : Bool := c.isAlphanum || c == '_' || c == '-'

/-- One part of a key. -/
def readKeyPart (cs : List Char) : Option (String × List Char) :=
  match readShortQuoted? cs with
  | some r => some r
  | none =>
    let part := cs.takeWhile isKeyChar
    if part.isEmpty then none else some (String.ofList part, cs.drop part.length)

/-- A dotted key, with blanks around its dots and behind it. -/
def readKey : Nat → List Char → Option (List String × List Char)
  | 0, _ => none
  | fuel + 1, cs =>
    match readKeyPart (skipBlanks cs) with
    | none => none
    | some (part, rest) =>
      match skipBlanks rest with
      | '.' :: rest => (readKey fuel rest).map fun (parts, rest) => (part :: parts, rest)
      | rest => some ([part], rest)

/-! ## Trees of records -/

/-- Changes the field of a record, which may be missing. -/
def changeField (name : String) (f : Option Value → Option Value) :
    List (String × Value) → Option (List (String × Value))
  | [] => (f none).map fun v => [(name, v)]
  | (n, v) :: rest =>
    if n = name then (f (some v)).map fun v => (name, v) :: rest
    else (changeField name f rest).map ((n, v) :: ·)

/-- Changes the value at the end of a way through records; an array of tables is entered at its
    last item, and what is missing on the way is made. -/
def changeAt : List String → (Option Value → Option Value) → Option Value → Option Value
  | [], f, v => f v
  | name :: rest, f, v =>
    match v with
    | none => (changeField name (changeAt rest f) []).map .record
    | some (.record fs) => (changeField name (changeAt rest f) fs).map .record
    | some (.list items) =>
      match items.getLast? with
      | some (.record fs) =>
        (changeField name (changeAt rest f) fs).map fun fs => .list (items.dropLast ++ [.record fs])
      | _ => none
    | _ => none

/-- Enters a value at a place that is still free. -/
def assign (way : List String) (v : Value) (tree : Value) : Option Value :=
  changeAt way (fun old => if old.isNone then some v else none) (some tree)

/-- Makes sure that there is a table. -/
def openTable (way : List String) (tree : Value) : Option Value :=
  changeAt way (fun old => some (old.getD (.record []))) (some tree)

/-- Adds a table to an array of tables. -/
def addTable (way : List String) (tree : Value) : Option Value :=
  changeAt way (fun old => match old with
    | none => some (.list [.record []])
    | some (.list items) => some (.list (items ++ [.record []]))
    | _ => none) (some tree)

/-! ## Values -/

mutual

/-- A value; `fuel` bounds the number of nested steps. -/
def readValue : Nat → List Char → Option (Value × List Char)
  | 0, _ => none
  | fuel + 1, cs =>
    match cs with
    | '"' :: _ | '\'' :: _ => (readQuoted? cs).map fun (s, rest) => (.text s, rest)
    | '[' :: rest => (readItems fuel rest).map fun (vs, rest) => (.list vs, rest)
    | '{' :: rest =>
      match skipBlanks rest with
      | '}' :: rest => some (.record [], rest)
      | rest => readInlineTable fuel (.record []) .empty rest
    | _ => readScalar? cs

/-- The items of an array up to its closing bracket. -/
def readItems : Nat → List Char → Option (List Value × List Char)
  | 0, _ => none
  | fuel + 1, cs =>
    match skipLines (cs.length + 1) cs with
    | ']' :: rest => some ([], rest)
    | rest =>
      match readValue fuel rest with
      | none => none
      | some (v, rest) =>
        match skipLines (rest.length + 1) rest with
        | ']' :: rest => some ([v], rest)
        | ',' :: rest => (readItems fuel rest).map fun (vs, rest) => (v :: vs, rest)
        | _ => none

/-- The assignments of a table on one line up to its closing brace. -/
def readInlineTable : Nat → Value → Outline → List Char → Option (Value × List Char)
  | 0, _, _, _ => none
  | fuel + 1, tree, names, cs =>
    match readKey (cs.length + 1) cs with
    | some (way, '=' :: rest) =>
      match readValue fuel (skipBlanks rest) with
      | none => none
      | some (v, rest) =>
        match assign way v tree, names.assign [] way, skipBlanks rest with
        | some tree, some _, '}' :: rest => some (tree, rest)
        | some tree, some names, ',' :: rest => readInlineTable fuel tree names rest
        | _, _, _ => none
    | _ => none

end

/-! ## Documents -/

/-- What was read so far: the tree, the table that assignments go to, and the names used. -/
structure Reading where
  tree : Value := .record []
  table : List String := []
  names : Outline := .empty

/-- Reads one line that is not blank. -/
def readLine (r : Reading) (cs : List Char) : Option (Reading × List Char) :=
  match cs with
  | '[' :: '[' :: rest => do
    let (way, rest) ← readKey (rest.length + 1) rest
    match rest with
    | ']' :: ']' :: rest =>
      let names ← (← r.names.endTable r.table).addTable way
      return ({ tree := ← addTable way r.tree, table := way, names }, ← endLine? rest)
    | _ => none
  | '[' :: rest => do
    let (way, rest) ← readKey (rest.length + 1) rest
    match rest with
    | ']' :: rest =>
      let names ← (← r.names.endTable r.table).openTable way
      return ({ tree := ← openTable way r.tree, table := way, names }, ← endLine? rest)
    | _ => none
  | _ => do
    let (way, rest) ← readKey (cs.length + 1) cs
    match rest with
    | '=' :: rest =>
      let (v, rest) ← readValue (rest.length + 1) (skipBlanks rest)
      let names ← r.names.assign r.table way
      return ({ r with tree := ← assign (r.table ++ way) v r.tree, names }, ← endLine? rest)
    | _ => none

/-- Reads the lines of a document. -/
def readLines : Nat → Reading → List Char → Option Value
  | 0, _, _ => none
  | fuel + 1, r, cs =>
    match skipLines (cs.length + 1) cs with
    | [] => some r.tree
    | rest =>
      match readLine r rest with
      | some (r, rest) => readLines fuel r rest
      | none => none

/-- A document holds no control characters but tabs and line ends, and a carriage return only in
    front of a line feed. -/
def isPlainText : List Char → Bool
  | [] => true
  | '\r' :: '\n' :: rest => isPlainText rest
  | c :: rest =>
    (0x20 ≤ c.toNat || c == '\t' || c == '\n') && c.toNat != 0x7F && isPlainText rest

/-- Reads a whole document. Every line takes a character, so the length of the input is fuel
    enough. -/
def read (s : String) : Option Value :=
  let cs := s.toList
  if isPlainText cs then readLines (cs.length + 1) {} cs else none

end ObjectLowering.Data.Toml
